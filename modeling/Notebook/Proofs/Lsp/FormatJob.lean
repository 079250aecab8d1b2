import Notebook.Proofs.Lsp.LateAnswer
import Notebook.Proofs.Session.Editor
/-!
# Formatting a notebook cell by cell

The code cells of a notebook are formatted one after the other, from the bottom up. The answer to the
request for one cell leads to the request for the next. A log is kept of such a job: each request, the
relay and the notebook as they were when it had gone out, and its answer. Whatever happens in between,
every cell has its turn once, in order, and only cells that are gone by then are passed over.
-/
namespace Notebook

open Text Layout

namespace Session

variable {session : Session}

/-! ## Cells and their ranges -/

theorem indexOf?_eq_none_iff {list : CellList} {id : Text} :
    list.indexOf? id = none ↔ ∀ cell ∈ list.cells, cell.id ≠ id := by
  simp [CellList.indexOf?, List.findIdx?_eq_none_iff]

/-- In a sound session a cell that exists stands somewhere. -/
theorem Sound.stands_cases (sound : session.Sound) (id : Text) :
    session.cells.indexOf? id = none ∨ ∃ above cell below, cell.id = id ∧
      session.cells.cells = above ++ cell :: below ∧
      (session.cells.indexOf? id).bind session.spanOf? =
        some ⟨depth above, depth above + cell.height - 1⟩ := by
  cases found : session.cells.indexOf? id with
  | none => exact .inl rfl
  | some index =>
    right
    obtain ⟨bound, same, -⟩ := List.findIdx?_eq_some_iff_getElem.mp found
    obtain ⟨above, below, cells, rfl⟩ := exists_around (List.getElem?_eq_getElem bound)
    exact ⟨above, _, below, by simpa using same, cells, sound.inStep.spanOf? sound.plain cells⟩

theorem Sound.stands_eq_none_iff (sound : session.Sound) {id : Text} :
    (session.cells.indexOf? id).bind session.spanOf? = none ↔ session.cells.indexOf? id = none := by
  constructor
  · intro lost
    rcases sound.stands_cases id with gone | ⟨above, cell, below, -, -, stands⟩
    · exact gone
    · rw [stands] at lost
      cases lost
  · intro gone
    rw [gone]
    rfl

end Session

namespace Lsp

open Workspace Session

/-- The range of all content lines of a cell in a view. -/
def fullRange (above : List Cell) (cell : Cell) (view : Buffer) : Range :=
  let last := depth above + cell.lineCount
  ⟨⟨word (depth above + 1), 0⟩, ⟨word last, word (Text.units ((Text.line? view.text last).getD []))⟩⟩

theorem contentRange_eq (session : Session) (above : List Cell) (cell : Cell) :
    contentRange session ⟨depth above, depth above + cell.height - 1⟩ =
      fullRange above cell session.facade := by
  have last : depth above + cell.height - 1 - 1 = depth above + cell.lineCount := by
    rw [contentStop_eq]
    omega
  simp only [contentRange, Span.contentStart, Span.contentStop, last]
  rfl

/-- In the shadow the range is the same if the cell is code; else it ends at the start of a line. -/
theorem fullRange_shadow {session : Session} (sound : session.Sound) {above below : List Cell}
    {cell : Cell} (cells : session.cells.cells = above ++ cell :: below) :
    (cell.kind.isCode = true →
      fullRange above cell session.shadow = fullRange above cell session.facade) ∧
    (cell.kind.isCode = false → (fullRange above cell session.shadow).stop.character = 0) := by
  have positive : 0 < cell.lineCount := Nat.succ_pos _
  have bound : cell.lineCount - 1 < cell.lines.length := by
    rw [Cell.lines, length_lines]
    exact Nat.sub_lt positive Nat.one_pos
  obtain ⟨facade, shadow⟩ :=
    sound.inStep.content_lines sound.plain cells (List.getElem?_eq_getElem bound)
  have last : cell.lineCount - 1 + (depth above + 1) = depth above + cell.lineCount := by
    omega
  rw [last] at facade shadow
  change Text.line? session.facade.text _ = _ at facade
  change Text.line? session.shadow.text _ = _ at shadow
  constructor
  · intro code
    simp only [fullRange, facade, shadow, code, if_true]
  · intro prose
    simp only [fullRange, shadow, prose, Bool.false_eq_true, if_false]
    rfl

/-! ## Logs of jobs -/

/-- One round of a job: a request, the relay and the notebook as they were when it had gone out, and
the answer once it is in. -/
structure Round where
  request : Request
  relay : Relay
  session : Session
  answer : Option Response := none

/-- The formatting of a notebook for a surface. -/
structure JobLog where
  surface : SurfaceId
  notebook : NotebookId
  /-- The notebook as it was when the first request had gone out. -/
  opening : Session
  /-- The rounds so far, the last one first. -/
  rounds : List Round
  /-- What the relay said to the last answer, and the notebooks then. -/
  ending : Option (Except RelayFault AnswerOutcome × Workspace) := none

/-- The cell that the relay remembers the request to be about, and where it stood. -/
def Round.target? (round : Round) : Option (Text × Span) :=
  (Table.get? round.relay.pending round.request.id).bind fun pending => pending.purpose.target?

def Round.cell? (round : Round) : Option Text := round.target?.map (·.1)

/-- The code cells among some cells, from the bottom up. -/
def codeRow (cells : List Cell) : List Text :=
  ((cells.filter fun cell => cell.kind.isCode).map (·.id)).reverse

/-- The code cells of the notebook as the job found it, from the bottom up. -/
def JobLog.row (log : JobLog) : List Text := codeRow log.opening.cells.cells

/-- The request of a round still waits, and a message is the answer to it. -/
structure Round.Awaits (round : Round) (desk : Desk) (message : Json) (response : Response) : Prop where
  decoded : Response.decode? message = some response
  number : response.id = round.request.id
  waits : (Table.get? desk.relay.pending round.request.id).isSome

namespace Desk

/-- The request that goes out when something happens, if one does. -/
def asks (desk : Desk) : Dealing → Option Request
  | .request surface method params =>
    (desk.relay.request desk.workspace surface method params).1.toOption.bind id
  | .requestFlushed surface method params =>
    (desk.relay.requestFlushed desk.workspace surface method params).1.toOption.bind (·.2)
  | .answer message => Relay.followUp? (desk.relay.answer desk.workspace message).1
  | _ => none

/-- A job was started from a facade and went on up to here, and in between there happened only what
may. -/
inductive Logged (between : Desk → Dealing → Prop) : Desk → JobLog → Prop
  | start {desk : Desk} {surface : SurfaceId} {notebook : NotebookId} {params : Json}
      {dealing : Dealing} {request : Request} {opening : Session} : Run desk →
      Table.get? desk.workspace.surfaces surface = some ⟨notebook, .facade, 0⟩ →
      dealing = .request surface "textDocument/formatting" params ∨
        dealing = .requestFlushed surface "textDocument/formatting" params →
      desk.asks dealing = some request →
      (desk.perform dealing).workspace.session? notebook = some opening →
      Logged between (desk.perform dealing) ⟨surface, notebook, opening,
        [⟨request, (desk.perform dealing).relay, opening, none⟩], none⟩
  | other {desk : Desk} {log : JobLog} (dealing : Dealing) : Logged between desk log →
      dealing.Admitted → between desk dealing →
      (∀ message response, dealing = .answer message →
        ∀ round ∈ log.rounds.head?, ¬round.Awaits desk message response) →
      Logged between (desk.perform dealing) log
  | next {desk : Desk} {log : JobLog} {round : Round} {rest : List Round} {message : Json}
      {response : Response} {request : Request} {session : Session} : Logged between desk log →
      log.rounds = round :: rest → round.Awaits desk message response →
      desk.asks (.answer message) = some request →
      (desk.perform (.answer message)).workspace.session? log.notebook = some session →
      Logged between (desk.perform (.answer message)) { log with
        rounds := ⟨request, (desk.perform (.answer message)).relay, session, none⟩ ::
          { round with answer := some response } :: rest }
  | last {desk : Desk} {log : JobLog} {round : Round} {rest : List Round} {message : Json}
      {response : Response} : Logged between desk log → log.rounds = round :: rest →
      round.Awaits desk message response → desk.asks (.answer message) = none →
      Logged between (desk.perform (.answer message)) { log with
        rounds := { round with answer := some response } :: rest
        ending := some ((desk.relay.answer desk.workspace message).1,
          (desk.perform (.answer message)).workspace) }

end Desk

/-! ## What goes out -/

/-- The request of a round is about the next cell of a job. -/
structure Round.Asks (round : Round) (surface : SurfaceId) (notebook : NotebookId)
    (job : FormatJob) : Prop where
  waits : Table.get? round.relay.pending round.request.id =
    some ⟨"textDocument/rangeFormatting", surface, notebook, .formatNotebook job⟩
  method : round.request.method = "textDocument/rangeFormatting"
  range : round.request.params.get? "range" = some (contentRange round.session job.span).encode
  stands : (round.session.cells.indexOf? job.cell).bind round.session.spanOf? = some job.span

namespace Relay

variable {relay after : Relay} {session : Session} {origin : Origin} {uri : Text} {options : Json}
  {applied : Nat} {cells : List Text}

/-- No request goes out if no cell stands anywhere. -/
theorem requestFormat_none
    (idle : relay.requestFormat session origin uri options applied cells = (none, after)) :
    ∀ id ∈ cells, (session.cells.indexOf? id).bind session.spanOf? = none := by
  induction cells with
  | nil => exact List.forall_mem_nil _
  | cons cell remaining ih =>
    unfold requestFormat at idle
    split at idle
    next gone => exact List.forall_mem_cons.mpr ⟨gone, ih idle⟩
    next => cases idle

/-- Else one goes out about the first that does. -/
theorem requestFormat_some {request : Request}
    (asked : relay.requestFormat session origin uri options applied cells = (some request, after)) :
    ∃ skipped job, cells = skipped ++ job.cell :: job.remaining ∧ job.applied = applied ∧
      (∀ id ∈ skipped, (session.cells.indexOf? id).bind session.spanOf? = none) ∧
      Round.Asks ⟨request, after, session, none⟩ origin.surface origin.notebook job := by
  induction cells with
  | nil => cases asked
  | cons cell remaining ih =>
    unfold requestFormat at asked
    split at asked
    next gone =>
      obtain ⟨skipped, job, row, sum, passed, asks⟩ := ih asked
      exact ⟨cell :: skipped, job, congrArg (cell :: ·) row, sum,
        List.forall_mem_cons.mpr ⟨gone, passed⟩, asks⟩
    next span stands =>
      cases asked
      exact ⟨[], ⟨cell, span, remaining, options, applied⟩, rfl, rfl, List.forall_mem_nil _,
        Table.get?_set_self _ _ _, rfl, rfl, stands⟩

/-- What a step of formatting comes to: a fault, an end where no cell is left, or the next request. -/
theorem answerFormatNotebook_cases (relay : Relay) (session : Session) (origin : Origin) (uri : Text)
    (job : FormatJob) (result : Json) :
    let step := formatStep session job result
    let answered := relay.answerFormatNotebook session origin uri job result
    answered.2.2 = step.2 ∧
      ((∃ fault, step.1 = .error fault ∧ answered.1 = .error fault) ∨
      ∃ applied, step.1 = .ok applied ∧
        (answered.1 = .ok (.applied origin.notebook applied) ∧
          (∀ id ∈ job.remaining, (step.2.cells.indexOf? id).bind step.2.spanOf? = none) ∨
        ∃ request skipped next, answered.1 = .ok (.followUp request) ∧
          job.remaining = skipped ++ next.cell :: next.remaining ∧ next.applied = applied ∧
          (∀ id ∈ skipped, (step.2.cells.indexOf? id).bind step.2.spanOf? = none) ∧
          Round.Asks ⟨request, answered.2.1, step.2, none⟩ origin.surface origin.notebook next)) := by
  unfold answerFormatNotebook
  dsimp only
  split
  next fault later failed =>
    rw [failed]
    exact ⟨rfl, .inl ⟨fault, rfl, rfl⟩⟩
  next applied later made =>
    rw [made]
    split
    next request after asked =>
      obtain ⟨skipped, next, row, sum, passed, asks⟩ := requestFormat_some asked
      exact ⟨rfl, .inr ⟨applied, rfl, .inr ⟨request, skipped, next, rfl, row, sum, passed, asks⟩⟩⟩
    next after idle =>
      exact ⟨rfl, .inr ⟨applied, rfl, .inl ⟨rfl, requestFormat_none idle⟩⟩⟩

/-- What becomes of an answer to a request that waits, if its surface is live. -/
theorem answer_located {workspace : Workspace} {message : Json} {response : Response}
    {pending : Pending} (decoded : Response.decode? message = some response)
    (waits : Table.get? relay.pending response.id = some pending)
    (located : Origin.of? workspace pending.origin = some origin) :
    let struck := { relay with pending := Table.erase relay.pending response.id }
    relay.answer workspace message = match relay.addresses? origin.notebook with
      | none => (.ok .discarded, struck, workspace)
      | some addresses => match response.error with
        | some error => (.ok (if error.isWithdrawal then .discarded
            else .notify ⟨.error, pending.method ++ ": " ++ error.message⟩), struck, workspace)
        | none => match workspace.session? origin.notebook with
          | none => (.error (.notebook .notebookNotFound), struck, workspace)
          | some session =>
            let (outcome, after, session) := struck.answerPending session addresses origin pending
              (Json.orNull response.result)
            (outcome, after, workspace.setSession origin.notebook session) := by
  intro struck
  simp only [answer, decoded, waits, located]
  rfl

/-- A job starts with the cells from the bottom up. -/
theorem request_formatting {workspace : Workspace} {surface : SurfaceId} {params : Json}
    {request : Request}
    (asked : relay.request workspace surface "textDocument/formatting" params = (.ok (some request), after)) :
    ∃ origin session uri options, Origin.of? workspace surface = some origin ∧
      workspace.session? origin.notebook = some session ∧
      relay.requestFormat session origin uri options 0 (formatCells session origin) =
        (some request, after) := by
  unfold Relay.request at asked
  split at asked
  next => cases asked
  next origin located =>
    split at asked
    next => cases asked
    next document _ =>
      split at asked
      next => cases asked
      next session opened =>
        rw [if_pos rfl] at asked
        obtain ⟨made, rfl⟩ := Prod.mk.inj asked
        exact ⟨origin, session, _, _, located, opened, Prod.ext (Except.ok.inj made) rfl⟩

/-- A request that goes out after a flush is made of the notebook as it is left. -/
theorem requestFlushed_some {workspace : Workspace} {surface : SurfaceId} {method : Text}
    {params : Json} {request : Request}
    (asked : (relay.requestFlushed workspace surface method params).1.toOption.bind (·.2) =
      some request) :
    ∃ flushed : Relay, flushed.request (relay.requestFlushed workspace surface method params).2.2
      surface method params =
        (.ok (some request), (relay.requestFlushed workspace surface method params).2.1) := by
  unfold requestFlushed at asked ⊢
  split at asked
  next => cases asked
  next =>
    split at asked
    next => cases asked
    next =>
      split at asked
      next => cases asked
      next =>
        split at asked
        next => cases asked
        next flushed changed _ =>
          split at asked
          next => cases asked
          next made last out =>
            obtain rfl : made = some request := asked
            exact ⟨flushed, out⟩

end Relay

namespace Desk

variable {desk : Desk} {surface : SurfaceId} {notebook : NotebookId}

/-- A request that starts a job is about the lowest code cell that stands. -/
theorem asks_formatting {params : Json} {dealing : Dealing} {request : Request}
    (live : Table.get? desk.workspace.surfaces surface = some ⟨notebook, .facade, 0⟩)
    (starts : dealing = .request surface "textDocument/formatting" params ∨
      dealing = .requestFlushed surface "textDocument/formatting" params)
    (asked : desk.asks dealing = some request) :
    Table.get? (desk.perform dealing).workspace.surfaces surface = some ⟨notebook, .facade, 0⟩ ∧
    ∃ session skipped job, (desk.perform dealing).workspace.session? notebook = some session ∧
      codeRow session.cells.cells = skipped ++ job.cell :: job.remaining ∧ job.applied = 0 ∧
      (∀ id ∈ skipped, (session.cells.indexOf? id).bind session.spanOf? = none) ∧
      Round.Asks ⟨request, (desk.perform dealing).relay, session, none⟩ surface notebook job := by
  -- The request is made of the notebook as it is left, and the handle still means the same.
  have out : (desk.perform dealing).workspace.surfaces = desk.workspace.surfaces ∧
      ∃ relay : Relay, relay.request (desk.perform dealing).workspace surface
        "textDocument/formatting" params = (.ok (some request), (desk.perform dealing).relay) := by
    rcases starts with rfl | rfl
    · refine ⟨rfl, desk.relay, Prod.ext ?_ rfl⟩
      change (desk.relay.request desk.workspace surface _ params).1 = .ok (some request)
      change (desk.relay.request desk.workspace surface _ params).1.toOption.bind id = _ at asked
      cases answer : (desk.relay.request desk.workspace surface "textDocument/formatting" params).1 with
      | error fault =>
        rw [answer] at asked
        cases asked
      | ok made =>
        rw [answer] at asked
        exact congrArg Except.ok asked
    · exact ⟨(desk.relay.ledOn_requestFlushed desk.workspace surface _ params).sameHandles.surfaces,
        Relay.requestFlushed_some asked⟩
  obtain ⟨surfaces, relay, out⟩ := out
  obtain ⟨origin, session, uri, options, located, opened, made⟩ := Relay.request_formatting out
  rw [← surfaces] at live
  refine ⟨live, ?_⟩
  obtain ⟨found, current, resolved, -, same, kind, cell⟩ := Origin.of?_resolved located
  obtain ⟨there, -⟩ := resolve?_eq_some_iff.mp resolved
  obtain rfl := Option.some.inj (live.symm.trans there)
  obtain rfl : notebook = origin.notebook := same
  obtain ⟨rfl, -⟩ := Origin.of?_spec located
  obtain ⟨skipped, job, row, sum, passed, asks⟩ := Relay.requestFormat_some made
  refine ⟨session, skipped, job, opened, ?_, sum, passed, asks⟩
  rw [← row, Relay.formatCells, cell, ← kind]
  rfl

/-- What the answer to a request of a job can come to. -/
inductive Answered (desk : Desk) (message : Json) (response : Response) (surface : SurfaceId)
    (notebook : NotebookId) (job : FormatJob) : Prop
  | dropped : Origin.of? desk.workspace surface = none ∨ desk.relay.addresses? notebook = none ∨
        response.error.isSome →
      (desk.perform (.answer message)).workspace = desk.workspace →
      desk.asks (.answer message) = none →
      (∀ id edits, (desk.relay.answer desk.workspace message).1 ≠ .ok (.applied id edits)) →
      Answered desk message response surface notebook job
  | failed {current later : Session} {fault : RelayFault} : response.error = none →
      desk.workspace.session? notebook = some current →
      Relay.formatStep current job (Json.orNull response.result) = (.error fault, later) →
      (desk.perform (.answer message)).workspace.session? notebook = some later →
      desk.asks (.answer message) = none →
      (desk.relay.answer desk.workspace message).1 = .error fault →
      Answered desk message response surface notebook job
  | done {current later : Session} {applied : Nat} : response.error = none →
      desk.workspace.session? notebook = some current →
      Relay.formatStep current job (Json.orNull response.result) = (.ok applied, later) →
      (desk.perform (.answer message)).workspace.session? notebook = some later →
      desk.asks (.answer message) = none →
      (desk.relay.answer desk.workspace message).1 = .ok (.applied notebook applied) →
      (∀ id ∈ job.remaining, (later.cells.indexOf? id).bind later.spanOf? = none) →
      Answered desk message response surface notebook job
  | next {current later : Session} {applied : Nat} {request : Request} {skipped : List Text}
      {next : FormatJob} : response.error = none → desk.workspace.session? notebook = some current →
      Relay.formatStep current job (Json.orNull response.result) = (.ok applied, later) →
      (desk.perform (.answer message)).workspace.session? notebook = some later →
      desk.asks (.answer message) = some request →
      job.remaining = skipped ++ next.cell :: next.remaining → next.applied = applied →
      (∀ id ∈ skipped, (later.cells.indexOf? id).bind later.spanOf? = none) →
      Round.Asks ⟨request, (desk.perform (.answer message)).relay, later, none⟩ surface notebook next →
      Answered desk message response surface notebook job

theorem Run.answered (run : Run desk) {round : Round} {message : Json} {response : Response}
    {method : Text} {job : FormatJob} (awaits : round.Awaits desk message response)
    (waits : Table.get? desk.relay.pending round.request.id =
      some ⟨method, surface, notebook, .formatNotebook job⟩) :
    Answered desk message response surface notebook job := by
  obtain ⟨-, -, -, -, -, -, -, -, -, same, -⟩ := run.recalls waits
  rw [← awaits.number] at waits
  have decoded := awaits.decoded
  -- An answer that is not used leaves the notebooks and asks for nothing.
  have dropped {outcome : Except RelayFault AnswerOutcome} {relay : Relay}
      (out : desk.relay.answer desk.workspace message = (outcome, relay, desk.workspace))
      (why : Origin.of? desk.workspace surface = none ∨ desk.relay.addresses? notebook = none ∨
        response.error.isSome) (silent : Relay.followUp? outcome = none)
      (unused : ∀ id edits, outcome ≠ .ok (.applied id edits)) :
      Answered desk message response surface notebook job := by
    refine .dropped why ?_ ?_ ?_
    · simp only [perform, out]
      rfl
    · simp only [asks, out, silent]
    · rwa [out]
  let struck := { desk.relay with pending := Table.erase desk.relay.pending response.id }
  cases located : Origin.of? desk.workspace surface with
  | none => exact dropped (Relay.answer_lost decoded waits located) (.inl located) rfl (by simp)
  | some origin =>
    obtain rfl : origin.notebook = notebook := same origin located
    obtain ⟨rfl, -⟩ := Origin.of?_spec located
    obtain ⟨current, opened⟩ := Origin.exists_session located
    have out := Relay.answer_located decoded waits located
    cases registered : desk.relay.addresses? origin.notebook with
    | none =>
      rw [registered] at out
      exact dropped out (.inr (.inl registered)) rfl (by simp)
    | some addresses =>
      rw [registered] at out
      cases refused : response.error with
      | some error =>
        rw [refused] at out
        refine dropped out (.inr (.inr (by rw [refused]; rfl))) ?_ ?_
        · dsimp only
          split <;> rfl
        · intro id edits
          dsimp only
          split <;> simp
      | none =>
        simp only [refused, opened] at out
        let answered := struck.answerFormatNotebook current origin addresses.shadow job
          (Json.orNull response.result)
        let step := Relay.formatStep current job (Json.orNull response.result)
        have out : desk.relay.answer desk.workspace message = (answered.1, answered.2.1,
          desk.workspace.setSession origin.notebook answered.2.2) := out
        obtain ⟨left, effect⟩ := struck.answerFormatNotebook_cases current origin addresses.shadow job
          (Json.orNull response.result)
        have opened' : (desk.perform (.answer message)).workspace.session? origin.notebook =
            some step.2 := by
          change (desk.relay.answer desk.workspace message).2.2.session? origin.notebook = _
          rw [out, session?_setSession, if_pos rfl, opened, ← left]
          rfl
        have asked : desk.asks (.answer message) = Relay.followUp? answered.1 := by
          simp only [asks, out]
        rcases effect with ⟨fault, made, known⟩ | ⟨applied, made, ⟨known, gone⟩ |
          ⟨request, skipped, next, known, row, sum, passed, sent⟩⟩
        · refine .failed refused opened (Prod.ext made rfl) opened' ?_ ?_
          · rw [asked, known]
            rfl
          · rw [out, known]
        · refine .done refused opened (Prod.ext made rfl) opened' ?_ ?_ gone
          · rw [asked, known]
            rfl
          · rw [out, known]
        · have asked : desk.asks (.answer message) = some request := by
            rw [asked, known]
            rfl
          have relay : (desk.perform (.answer message)).relay = answered.2.1 := by
            change (desk.relay.answer desk.workspace message).2.1 = _
            rw [out]
          exact .next refused opened (Prod.ext made rfl) opened' asked row sum passed (relay ▸ sent)

end Desk

/-! ## One cell after the other -/

/-- The request of a round asks for the formatting of all of a cell, where that stands. -/
structure Round.IsAbout (round : Round) (above : List Cell) (cell : Cell) (below : List Cell) : Prop where
  cells : round.session.cells.cells = above ++ cell :: below
  target : round.target? = some (cell.id, ⟨depth above, depth above + cell.height - 1⟩)
  method : round.request.method = "textDocument/rangeFormatting"
  range : round.request.params.get? "range" = some (fullRange above cell round.session.facade).encode
  /-- It is the range in the shadow if the cell is code. -/
  code : cell.kind.isCode = true →
    fullRange above cell round.session.shadow = fullRange above cell round.session.facade
  /-- If it is not, the range in the shadow ends where its last line starts. -/
  prose : cell.kind.isCode = false → (fullRange above cell round.session.shadow).stop.character = 0

theorem Round.Asks.isAbout {round : Round} {surface : SurfaceId} {notebook : NotebookId}
    {job : FormatJob} (asks : round.Asks surface notebook job) (sound : round.session.Sound) :
    ∃ above cell below, cell.id = job.cell ∧
      job.span = ⟨depth above, depth above + cell.height - 1⟩ ∧ round.IsAbout above cell below := by
  have stands := asks.stands
  rcases sound.stands_cases job.cell with gone | ⟨above, cell, below, id, cells, place⟩
  · rw [gone] at stands
    cases stands
  · have span := Option.some.inj (stands.symm.trans place)
    obtain ⟨code, prose⟩ := fullRange_shadow sound cells
    refine ⟨above, cell, below, id, span, cells, ?_, asks.method, ?_, code, prose⟩
    · rw [target?, asks.waits, id, ← span]
      rfl
    · rw [← contentRange_eq, ← span]
      exact asks.range

/-- The cells of a row had their turn up to what is left. In each round the cells that were gone were
passed over, and the request is about the next one. -/
inductive Turns (row : List Text) : List Round → List Text → Prop
  | none : Turns row [] row
  | next {rounds : List Round} {skipped left : List Text} {round : Round} {above below : List Cell}
      {cell : Cell} : Turns row rounds (skipped ++ cell.id :: left) →
      (∀ id ∈ skipped, round.session.cells.indexOf? id = .none) → round.IsAbout above cell below →
      Turns row (round :: rounds) left

section Turns

variable {row left : List Text} {round : Round} {rounds : List Round}

theorem Turns.answered (turns : Turns row (round :: rounds) left) (answer : Option Response) :
    Turns row ({ round with answer } :: rounds) left := by
  cases turns with
  | next before passed about =>
    exact .next before passed
      ⟨about.cells, about.target, about.method, about.range, about.code, about.prose⟩

/-- So the cells are asked for in the order of the row, and what is left comes behind them. -/
theorem Turns.sublist (turns : Turns row rounds left) :
    ((rounds.map Round.cell?).reverse ++ left.map some).Sublist (row.map some) := by
  induction turns with
  | none => exact List.Sublist.refl _
  | @next rounds skipped left round above below cell _ _ about ih =>
    have cell : round.cell? = some cell.id := congrArg (Option.map Prod.fst) about.target
    rw [List.map_cons, List.reverse_cons, List.append_assoc, cell]
    refine .trans (.append_left ?_ _) ih
    rw [List.map_append, List.map_cons, List.singleton_append]
    exact List.sublist_append_right _ _

theorem Turns.isAbout (turns : Turns row rounds left) :
    ∀ round ∈ rounds, ∃ above cell below, round.IsAbout above cell below := by
  induction turns with
  | none => exact List.forall_mem_nil _
  | next _ _ about ih => exact List.forall_mem_cons.mpr ⟨⟨_, _, _, about⟩, ih⟩

end Turns

namespace Desk

variable {desk : Desk} {between : Desk → Dealing → Prop} {log : JobLog}

/-! ## What a job keeps, whatever happens in between -/

/-- How a job stands: its last round, the ones before, and what is remembered for the last one. -/
structure Holds (desk : Desk) (log : JobLog) (round : Round) (rest : List Round)
    (job : FormatJob) : Prop where
  rounds : log.rounds = round :: rest
  asks : round.Asks log.surface log.notebook job
  turns : Turns log.row log.rounds job.remaining
  past : ∀ old ∈ rest, old.answer.isSome
  ended : log.ending.isSome = round.answer.isSome
  settled : ∀ old ∈ log.rounds, old.request.id < desk.relay.next ∧
    (old.answer.isSome → Table.get? desk.relay.pending old.request.id = none)
  waits : ∀ pending, Table.get? desk.relay.pending round.request.id = some pending →
    pending = ⟨"textDocument/rangeFormatting", log.surface, log.notebook, .formatNotebook job⟩
  finished : ∀ id edits workspace, log.ending = some (.ok (.applied id edits), workspace) →
    ∃ session, workspace.session? log.notebook = some session ∧
      ∀ id ∈ job.remaining, session.cells.indexOf? id = none

theorem Logged.leads (logged : Logged between desk log) : ∃ first, Run first ∧
    first.workspace.session? log.notebook = some log.opening ∧ first.Leads desk := by
  induction logged with
  | start run _ starts _ opened =>
    refine ⟨_, run.step _ ?_, opened, .still⟩
    rcases starts with rfl | rfl <;> trivial
  | other dealing _ admitted _ _ ih =>
    obtain ⟨first, run, opened, leads⟩ := ih
    exact ⟨first, run, opened, leads.step dealing admitted⟩
  | next _ _ _ _ _ ih =>
    obtain ⟨first, run, opened, leads⟩ := ih
    exact ⟨first, run, opened, leads.step _ trivial⟩
  | last _ _ _ _ ih =>
    obtain ⟨first, run, opened, leads⟩ := ih
    exact ⟨first, run, opened, leads.step _ trivial⟩

theorem Logged.run (logged : Logged between desk log) : Run desk := by
  obtain ⟨first, run, -, leads⟩ := logged.leads
  exact leads.run run

/-- As long as the notebook is open it stays sound, under the settings it was opened with. -/
theorem Logged.sound (logged : Logged between desk log) (plain : '\n' ∉ log.opening.settings.tag)
    {later : Desk} (onward : desk.Leads later) {session : Session}
    (opened : later.workspace.session? log.notebook = some session) :
    session.Sound ∧ session.settings = log.opening.settings := by
  obtain ⟨first, run, before, leads⟩ := logged.leads
  have accounted := run.accounted
  obtain ⟨settings, reachable⟩ := accounted.grown _ log.opening before
  obtain ⟨rfl, -⟩ := reachable.headed
  obtain ⟨entry, known, -⟩ := entry?_of_session? before
  obtain ⟨former, there, led⟩ := (leads.trans onward).continues.sessions _ session
    (accounted.numbered.notebooks _ entry known) opened
  obtain rfl := Option.some.inj (before.symm.trans there)
  exact (led.reachable reachable).sound plain

theorem Logged.sound_opening (logged : Logged between desk log)
    (plain : '\n' ∉ log.opening.settings.tag) : log.opening.Sound := by
  obtain ⟨first, run, before, -⟩ := logged.leads
  obtain ⟨settings, reachable⟩ := run.accounted.grown _ log.opening before
  obtain ⟨rfl, -⟩ := reachable.headed
  exact (reachable.sound plain).1

/-- What is settled stays settled. -/
theorem Run.settled (run : Run desk) (dealing : Dealing) (admitted : dealing.Admitted) {number : Nat}
    {answered : Prop} (settled : number < desk.relay.next ∧
      (answered → Table.get? desk.relay.pending number = none)) :
    number < (desk.perform dealing).relay.next ∧
      (answered → Table.get? (desk.perform dealing).relay.pending number = none) := by
  obtain ⟨next, pending⟩ := (Leads.still.step dealing admitted : desk.Leads _).pending run
  refine ⟨Nat.lt_of_lt_of_le settled.1 next, fun done => ?_⟩
  rw [Option.eq_none_iff_forall_ne_some]
  intro waiting waits
  rw [pending number waiting settled.1 waits] at settled
  cases settled.2 done

theorem Holds.unanswered {round : Round} {rest : List Round} {job : FormatJob}
    (holds : desk.Holds log round rest job) {message : Json} {response : Response}
    (awaits : round.Awaits desk message response) : round.answer = none := by
  cases known : round.answer with
  | none => rfl
  | some answer =>
    have gone := (holds.settled round (holds.rounds ▸ List.mem_cons_self)).2 (by rw [known]; rfl)
    have waits := awaits.waits
    rw [gone] at waits
    cases waits

/-- The answer to the last round settles it. -/
theorem Holds.settled_answer {round : Round} {rest : List Round} {job : FormatJob}
    (holds : desk.Holds log round rest job) (run : Run desk) {message : Json} {response : Response}
    (awaits : round.Awaits desk message response) :
    ∀ old ∈ { round with answer := some response } :: rest,
      old.request.id < (desk.perform (.answer message)).relay.next ∧ (old.answer.isSome →
        Table.get? (desk.perform (.answer message)).relay.pending old.request.id = none) := by
  have settled := holds.settled
  rw [holds.rounds, List.forall_mem_cons] at settled
  obtain ⟨⟨number, -⟩, others⟩ := settled
  refine List.forall_mem_cons.mpr ⟨⟨?_, fun _ => ?_⟩, fun old member => ?_⟩
  · have leads : desk.Leads (desk.perform (.answer message)) := Leads.still.step _ trivial
    exact Nat.lt_of_lt_of_le number (leads.pending run).1
  · change Table.get? _ round.request.id = none
    rw [← awaits.number] at number ⊢
    exact run.struck awaits.decoded number
  · exact run.settled (.answer message) trivial (others old member)

theorem holds_start {surface : SurfaceId} {notebook : NotebookId} {params : Json} {dealing : Dealing}
    {request : Request} {opening : Session} (run : Run (desk.perform dealing)) (sound : opening.Sound)
    (live : Table.get? desk.workspace.surfaces surface = some ⟨notebook, .facade, 0⟩)
    (starts : dealing = .request surface "textDocument/formatting" params ∨
      dealing = .requestFlushed surface "textDocument/formatting" params)
    (asked : desk.asks dealing = some request)
    (opened : (desk.perform dealing).workspace.session? notebook = some opening) :
    ∃ skipped job, codeRow opening.cells.cells = skipped ++ job.cell :: job.remaining ∧
      (∀ id ∈ skipped, opening.cells.indexOf? id = none) ∧ job.applied = 0 ∧
      (desk.perform dealing).Holds ⟨surface, notebook, opening,
        [⟨request, (desk.perform dealing).relay, opening, none⟩], none⟩
        ⟨request, (desk.perform dealing).relay, opening, none⟩ [] job := by
  obtain ⟨-, session, skipped, job, opened', row, sum, passed, asks⟩ :=
    asks_formatting live starts asked
  obtain rfl := Option.some.inj (opened.symm.trans opened')
  obtain ⟨above, cell, below, id, -, about⟩ := asks.isAbout sound
  have passed (id : Text) (member : id ∈ skipped) : opening.cells.indexOf? id = none :=
    sound.stands_eq_none_iff.mp (passed id member)
  refine ⟨skipped, job, row, passed, sum, rfl, asks, ?_, List.forall_mem_nil _, rfl, ?_, ?_, nofun⟩
  · refine .next ?_ passed about
    rw [id, ← row]
    exact .none
  · exact List.forall_mem_singleton.mpr ⟨run.number_lt asks.waits, nofun⟩
  · intro pending waits
    exact Option.some.inj (waits.symm.trans asks.waits)

variable {round : Round} {rest : List Round} {job : FormatJob}

theorem Holds.other (holds : desk.Holds log round rest job) (run : Run desk) (dealing : Dealing)
    (admitted : dealing.Admitted) : (desk.perform dealing).Holds log round rest job := by
  have leads : desk.Leads (desk.perform dealing) := Leads.still.step _ admitted
  refine ⟨holds.rounds, holds.asks, holds.turns, holds.past, holds.ended, ?_, ?_, holds.finished⟩
  · intro old member
    exact run.settled dealing admitted (holds.settled old member)
  · intro pending waits
    have number := (holds.settled round (holds.rounds ▸ List.mem_cons_self)).1
    exact holds.waits pending ((leads.pending run).2 _ _ number waits)

section Answer

variable {message : Json} {response : Response}

theorem Holds.answered (holds : desk.Holds log round rest job) (run : Run desk)
    (awaits : round.Awaits desk message response) :
    desk.Answered message response log.surface log.notebook job := by
  obtain ⟨pending, waits⟩ := Option.isSome_iff_exists.mp awaits.waits
  have same := holds.waits pending waits
  subst same
  exact run.answered awaits waits

theorem Holds.next (holds : desk.Holds log round rest job) (logged : Logged between desk log)
    (plain : '\n' ∉ log.opening.settings.tag) (awaits : round.Awaits desk message response)
    {request : Request} {session : Session} (asked : desk.asks (.answer message) = some request)
    (opened : (desk.perform (.answer message)).workspace.session? log.notebook = some session) :
    ∃ current skipped later, desk.workspace.session? log.notebook = some current ∧
      response.error = none ∧
      Relay.formatStep current job (Json.orNull response.result) = (.ok later.applied, session) ∧
      job.remaining = skipped ++ later.cell :: later.remaining ∧
      (∀ id ∈ skipped, session.cells.indexOf? id = none) ∧
      (desk.perform (.answer message)).Holds { log with
        rounds := ⟨request, (desk.perform (.answer message)).relay, session, none⟩ ::
          { round with answer := some response } :: rest }
        ⟨request, (desk.perform (.answer message)).relay, session, none⟩
        ({ round with answer := some response } :: rest) later := by
  have run := logged.run
  have leads : desk.Leads (desk.perform (.answer message)) := Leads.still.step _ trivial
  -- Only where another request goes out does the job go on.
  cases holds.answered run awaits with
  | dropped _ _ silent => cases asked.symm.trans silent
  | failed _ _ _ _ silent => cases asked.symm.trans silent
  | done _ _ _ _ silent => cases asked.symm.trans silent
  | next answer before made opened' asked' row sum passed asks =>
    obtain rfl := Option.some.inj (asked.symm.trans asked')
    obtain rfl := Option.some.inj (opened.symm.trans opened')
    obtain ⟨sound, -⟩ := logged.sound plain leads opened
    obtain ⟨above, cell, below, id, -, about⟩ := asks.isAbout sound
    have turns := holds.turns
    rw [holds.rounds, row, ← id] at turns
    have passed (id : Text) (member : id ∈ _) : session.cells.indexOf? id = none :=
      sound.stands_eq_none_iff.mp (passed id member)
    refine ⟨_, _, _, before, answer, sum ▸ made, row, passed, rfl, asks, ?_, ?_, ?_, ?_, ?_, ?_⟩
    · exact .next (turns.answered _) passed about
    · exact List.forall_mem_cons.mpr ⟨rfl, holds.past⟩
    · rw [holds.ended, holds.unanswered awaits]
    · exact List.forall_mem_cons.mpr
        ⟨⟨(leads.run run).number_lt asks.waits, nofun⟩, holds.settled_answer run awaits⟩
    · intro pending waits
      exact Option.some.inj (waits.symm.trans asks.waits)
    · intro id edits workspace ending
      have ended := holds.ended
      rw [holds.unanswered awaits, ending] at ended
      cases ended

theorem Holds.last (holds : desk.Holds log round rest job) (logged : Logged between desk log)
    (plain : '\n' ∉ log.opening.settings.tag) (awaits : round.Awaits desk message response)
    (silent : desk.asks (.answer message) = none) :
    (desk.perform (.answer message)).Holds { log with
      rounds := { round with answer := some response } :: rest
      ending := some ((desk.relay.answer desk.workspace message).1,
        (desk.perform (.answer message)).workspace) }
      { round with answer := some response } rest job := by
  have run := logged.run
  have leads : desk.Leads (desk.perform (.answer message)) := Leads.still.step _ trivial
  have turns := holds.turns
  rw [holds.rounds] at turns
  have asks := holds.asks
  -- The ledger of the job stays as it was: the answer adds what it is, and how the job ended.
  refine ⟨rfl, ⟨asks.waits, asks.method, asks.range, asks.stands⟩, turns.answered _, holds.past, rfl,
    holds.settled_answer run awaits, ?_, ?_⟩
  · intro pending waits
    have settled := holds.settled_answer run awaits _ List.mem_cons_self
    cases waits.symm.trans (settled.2 rfl)
  · intro id edits workspace ending
    obtain ⟨outcome, rfl⟩ := Prod.mk.inj (Option.some.inj ending)
    -- An ending with changes is the one that found no cell left to ask about.
    cases holds.answered run awaits with
    | dropped _ _ _ unused => exact absurd outcome (unused id edits)
    | failed _ _ _ _ _ fault => cases outcome.symm.trans fault
    | done _ _ _ opened _ _ gone =>
      obtain ⟨sound, -⟩ := logged.sound plain leads opened
      exact ⟨_, opened, fun id member => sound.stands_eq_none_iff.mp (gone id member)⟩
    | next _ _ _ _ asked => cases silent.symm.trans asked

end Answer

theorem Logged.holds (logged : Logged between desk log) (plain : '\n' ∉ log.opening.settings.tag) :
    ∃ round rest job, desk.Holds log round rest job := by
  induction logged with
  | start run live starts asked opened =>
    have logged : Logged between _ _ := .start run live starts asked opened
    obtain ⟨-, job, -, -, -, holds⟩ :=
      holds_start logged.run (logged.sound_opening plain) live starts asked opened
    exact ⟨_, _, job, holds⟩
  | other dealing logged admitted _ _ ih =>
    obtain ⟨round, rest, job, holds⟩ := ih plain
    exact ⟨round, rest, job, holds.other logged.run dealing admitted⟩
  | next logged rounds awaits asked opened ih =>
    obtain ⟨round, rest, job, holds⟩ := ih plain
    obtain ⟨rfl, rfl⟩ := List.cons.inj (rounds.symm.trans holds.rounds)
    obtain ⟨_, _, later, -, -, -, -, -, after⟩ := holds.next logged plain awaits asked opened
    exact ⟨_, _, later, after⟩
  | last logged rounds awaits silent ih =>
    obtain ⟨round, rest, job, holds⟩ := ih plain
    obtain ⟨rfl, rfl⟩ := List.cons.inj (rounds.symm.trans holds.rounds)
    exact ⟨_, _, job, holds.last logged plain awaits silent⟩

end Desk

end Lsp

end Notebook

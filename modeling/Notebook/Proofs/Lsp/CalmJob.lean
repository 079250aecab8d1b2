import Notebook.Proofs.Lsp.FormatJob
import Notebook.Proofs.Lsp.FormatWithin
/-!
# Formatting jobs that nothing disturbs

If nothing else changes the notebook while a job goes on, then formatting the lower cells makes no
difference to those above. So each cell becomes what its own edits alone make of it in the notebook
as the job found it, and the numbers of edits that were made add up. At the end this is put together
with what holds of every job.
-/
namespace Notebook.Lsp

open Text Layout Workspace Session

/-! ## Each cell alone -/

/-- The edits that an answer proposes. A refusal proposes none. -/
def Response.proposed (response : Response) : List TextEdit :=
  if response.error.isSome then [] else TextEdit.decodeAll (Json.orNull response.result)

/-- One cell of a notebook is formatted where it stands, and nothing else is done. -/
def formatAlone (session : Session) (id : Text) (proposed : List TextEdit) : Applied :=
  match (session.cells.indexOf? id).bind session.spanOf? with
  | none => (.ok 0, session)
  | some span => applyFormat session id span proposed

/-- The number of edits that are accepted if one cell is formatted alone. -/
def acceptedAlone (session : Session) (id : Text) (proposed : List TextEdit) : Nat :=
  (formatAlone session id proposed).1.toOption.getD 0

/-- The source of a cell after it was formatted alone. It is the one before if that is refused. -/
def sourceAlone (session : Session) (cell : Cell) (proposed : List TextEdit) : Text :=
  match formatAlone session cell.id proposed with
  | (.ok _, after) => ((after.cells.find? cell.id).map (·.source)).getD cell.source
  | (.error _, _) => cell.source

/-- What is shown of a cell after it was formatted alone with the edits for it. -/
def becomes (session : Session) (edits : Text → List TextEdit) (cell : Cell) : Text × Block :=
  (cell.id, ⟨cell.kind, sourceAlone session cell (edits cell.id)⟩)

section Alone

variable {session : Session} {above below : List Cell} {cell : Cell}

theorem formatAlone_eq (sound : session.Sound) (cells : session.cells.cells = above ++ cell :: below)
    (proposed : List TextEdit) : formatAlone session cell.id proposed =
      applyFormat session cell.id ⟨depth above, depth above + cell.height - 1⟩ proposed := by
  have found := CellList.indexOf?_eq sound.coherent.distinct_cells cells
  have stands := sound.inStep.spanOf? sound.plain cells
  simp only [formatAlone, found, Option.bind_some, stands]

theorem reformat_alone (sound : session.Sound) (clean : session.editorIsDirty = false)
    (cells : session.cells.cells = above ++ cell :: below) (proposed : List TextEdit) :
    let made := reformat session ⟨depth above, depth above + cell.height - 1⟩ cell.source proposed
    (formatAlone session cell.id proposed).1 = made.1 ∧
      sourceAlone session cell proposed = made.2 := by
  intro made
  obtain ⟨result, after, -⟩ := applyFormat_of_clean sound clean cells proposed
  rw [← formatAlone_eq sound cells] at result after
  refine ⟨result, ?_⟩
  unfold sourceAlone
  split
  next edits later formatted =>
    rw [formatted] at after
    -- Formatting leaves the identities, so the cell is still found by its own.
    have distinct : (CellList.ids later.cells.cells).Nodup := by
      rw [after]
      simpa [cells, CellList.ids] using sound.coherent.distinct_cells
    have found := CellList.find?_eq distinct after
    exact congrArg (fun found => (found.map Cell.source).getD cell.source) found
  next fault later failed =>
    rw [failed] at result
    exact (reformat_refused result.symm).symm

theorem sourceAlone_nil (sound : session.Sound) (clean : session.editorIsDirty = false)
    (member : cell ∈ session.cells.cells) : sourceAlone session cell [] = cell.source := by
  obtain ⟨above, below, cells⟩ := List.append_of_mem member
  exact (reformat_alone sound clean cells []).2

end Alone

/-! ## One step -/

section Step

variable {opening now : Session} {edits : Text → List TextEdit} {above below : List Cell} {cell : Cell}

/-- As long as there are no edits for a cell, it becomes what it is. -/
theorem becomes_eq_shown (sound : opening.Sound) (clean : opening.editorIsDirty = false)
    (member : cell ∈ opening.cells.cells) (fresh : edits cell.id = []) :
    becomes opening edits cell = shown cell := by
  rw [becomes, fresh, sourceAlone_nil sound clean member]
  rfl

/-- If only cells below a cell were formatted, then everything stands as it did down to that cell. -/
theorem exists_parts (target : opening.Sound) (still : opening.editorIsDirty = false)
    (cells : opening.cells.cells = above ++ cell :: below)
    (fresh : ∀ other ∈ above ++ [cell], edits other.id = [])
    (shows : now.cells.cells.map shown = opening.cells.cells.map (becomes opening edits)) :
    ∃ above' cell' below', now.cells.cells = above' ++ cell' :: below' ∧
      above'.map shown = above.map shown ∧ shown cell' = shown cell ∧
      below'.map shown = below.map (becomes opening edits) := by
  have same (other : Cell) (member : other ∈ above ++ [cell]) :
      becomes opening edits other = shown other := by
    refine becomes_eq_shown target still ?_ (fresh other member)
    rw [cells, List.append_cons]
    exact List.mem_append_left _ member
  rw [cells, List.map_append, List.map_cons] at shows
  obtain ⟨above', rest, parts, upper, rest'⟩ := List.map_eq_append_iff.mp shows
  obtain ⟨cell', below', rfl, here, lower⟩ := List.map_eq_cons_iff.mp rest'
  refine ⟨above', cell', below', parts, ?_, here.trans (same cell (by simp)), lower⟩
  rw [upper, List.map_congr_left fun other member => same other (by simp [member])]

/-- New edits for a cell change what becomes of this cell and of no other one. -/
theorem map_becomes_update (sound : opening.Sound) (clean : opening.editorIsDirty = false)
    (cells : opening.cells.cells = above ++ cell :: below)
    (fresh : ∀ other ∈ above ++ [cell], edits other.id = []) (proposed : List TextEdit) :
    opening.cells.cells.map (becomes opening (Function.update edits cell.id proposed)) =
      above.map shown ++ (cell.id, ⟨cell.kind, sourceAlone opening cell proposed⟩) ::
        below.map (becomes opening edits) := by
  have distinct := sound.coherent.distinct_cells
  rw [cells, CellList.ids, List.map_append, List.map_cons, List.nodup_append, List.nodup_cons]
    at distinct
  obtain ⟨-, ⟨apart, -⟩, upper⟩ := distinct
  -- Edits are known by the identity of their cell, and the cells have identities of their own.
  have other {row : List Cell} (elsewhere : ∀ other ∈ row, other.id ≠ cell.id) :
      row.map (becomes opening (Function.update edits cell.id proposed)) =
        row.map (becomes opening edits) := by
    refine List.map_congr_left fun other member => ?_
    rw [becomes, Function.update_of_ne (elsewhere other member), becomes]
  have before : above.map (becomes opening (Function.update edits cell.id proposed)) =
      above.map shown := by
    rw [other fun other member => upper _ (List.mem_map_of_mem member) _ List.mem_cons_self]
    refine List.map_congr_left fun other member => becomes_eq_shown sound clean ?_ ?_
    · rw [cells]
      exact List.mem_append_left _ member
    · exact fresh other (List.mem_append_left _ member)
  have behind : below.map (becomes opening (Function.update edits cell.id proposed)) =
      below.map (becomes opening edits) :=
    other fun other member same => apart (same ▸ List.mem_map_of_mem member)
  rw [cells, List.map_append, List.map_cons, before, behind, becomes, Function.update_self]

/-- The next cell of a job is formatted as it is alone, though cells below it were formatted before. -/
theorem formatStep_alone (target : opening.Sound) (still : opening.editorIsDirty = false)
    (sound : now.Sound) (settings : now.settings = opening.settings)
    (clean : now.editorIsDirty = false)
    (cells : opening.cells.cells = above ++ cell :: below)
    (fresh : ∀ other ∈ above ++ [cell], edits other.id = [])
    (shows : now.cells.cells.map shown = opening.cells.cells.map (becomes opening edits))
    {job : FormatJob} (about : job.cell = cell.id)
    (place : job.span = ⟨depth above, depth above + cell.height - 1⟩) (result : Json) :
    let proposed := TextEdit.decodeAll result
    let step := Relay.formatStep now job result
    step.2.editorIsDirty = false ∧
    step.2.cells.cells.map shown =
      opening.cells.cells.map (becomes opening (Function.update edits cell.id proposed)) ∧
    (step.1 = .ok (job.applied + acceptedAlone opening cell.id proposed) ∨
      ∃ fault, step.1 = .error fault ∧ (formatAlone opening cell.id proposed).1 = .error fault ∧
        ∀ boundary, fault ≠ .crossBoundary boundary) := by
  intro proposed step
  let span : Span := ⟨depth above, depth above + cell.height - 1⟩
  obtain ⟨above', cell', below', cells', front, here, back⟩ :=
    exists_parts target still cells fresh shows
  obtain ⟨id, kind, source⟩ := shown_eq here
  have height := height_eq_of_block (congrArg Prod.snd here)
  -- What stands above is what the job found there, so the edits mean the same as they did then.
  have made : reformat opening span cell.source proposed = reformat now span cell.source proposed :=
    reformat_eq_of_shown target sound settings.symm cells cells'
      (by rw [List.map_append, List.map_append, front, List.map_singleton, List.map_singleton, here])
      cell.source proposed
  have formatted := applyFormat_of_clean sound clean cells' proposed
  simp only [depth_eq_of_shown front, height, id, source] at formatted
  rw [← made] at formatted
  obtain ⟨outcome, after, dirty⟩ := formatted
  obtain ⟨alone, written⟩ := reformat_alone target still cells proposed
  rw [← written] at after
  have shows' : (applyFormat now cell.id span proposed).2.cells.cells.map shown =
      opening.cells.cells.map (becomes opening (Function.update edits cell.id proposed)) := by
    rw [after, map_becomes_update target still cells fresh, List.map_append, List.map_cons, front, back]
    simp [shown, Cell.block, kind]
  have cases := reformat_cases opening span cell.source proposed
  simp only [step, Relay.formatStep, about, place]
  rcases known : applyFormat now cell.id span proposed with ⟨answer, later⟩
  rw [known] at outcome dirty shows'
  obtain rfl : answer = _ := outcome
  -- A refusal across boundaries passes the cell over, the other one ends the job.
  rcases cases with ⟨count, made⟩ | made | ⟨fault, made⟩
  · rw [made] at alone ⊢
    refine ⟨dirty, shows', .inl ?_⟩
    rw [acceptedAlone, alone]
    rfl
  · rw [made] at alone ⊢
    refine ⟨dirty, shows', .inl ?_⟩
    rw [acceptedAlone, alone]
    rfl
  · rw [made] at alone ⊢
    exact ⟨dirty, shows', .inr ⟨_, rfl, alone, by simp⟩⟩

end Step

/-! ## What the answers of a job come to -/

/-- The edits that the answers so far propose for each cell. -/
def proposals (rounds : List Round) (id : Text) : List TextEdit :=
  (rounds.findSome? fun round =>
    if round.cell? = some id then round.answer.map Response.proposed else none).getD []

/-- The number of edits of an answer that are accepted if its cell is formatted alone. -/
def Round.accepted (opening : Session) (round : Round) : Nat :=
  match round.cell?, round.answer with
  | some id, some response => acceptedAlone opening id response.proposed
  | _, _ => 0

/-- The number of edits of all answers so far that are accepted. -/
def acceptedIn (opening : Session) (rounds : List Round) : Nat :=
  (rounds.map (Round.accepted opening)).sum

section Answers

variable {round : Round} {rest : List Round} {id : Text} {response : Response}

theorem proposals_unanswered (waiting : round.answer = none) :
    proposals (round :: rest) = proposals rest := by
  funext id
  simp [proposals, waiting]

theorem proposals_answered (about : round.cell? = some id) (answer : round.answer = some response) :
    proposals (round :: rest) = Function.update (proposals rest) id response.proposed := by
  funext other
  by_cases same : other = id
  · simp [proposals, about, answer, same]
  · rw [Function.update_of_ne same]
    simp [proposals, about, Ne.symm same]

theorem acceptedIn_unanswered (opening : Session) (waiting : round.answer = none) :
    acceptedIn opening (round :: rest) = acceptedIn opening rest := by
  simp [acceptedIn, Round.accepted, waiting]

theorem acceptedIn_answered (opening : Session) (about : round.cell? = some id)
    (answer : round.answer = some response) : acceptedIn opening (round :: rest) =
      acceptedIn opening rest + acceptedAlone opening id response.proposed := by
  simp [acceptedIn, Round.accepted, about, answer, Nat.add_comm]

end Answers

/-- A clean notebook shows what the answers so far make of it, each in its own cell alone. -/
structure Shows (opening : Session) (rounds : List Round) (now : Session) : Prop where
  clean : now.editorIsDirty = false
  cells : now.cells.cells.map shown = opening.cells.cells.map (becomes opening (proposals rounds))

/-- The next cell of a job stands where it stood when the job began, and so do all cells above it. -/
structure Turn (opening : Session) (rounds : List Round) (job : FormatJob) (above : List Cell)
    (cell : Cell) (below : List Cell) : Prop where
  cells : opening.cells.cells = above ++ cell :: below
  about : job.cell = cell.id
  place : job.span = ⟨depth above, depth above + cell.height - 1⟩
  remaining : job.remaining = codeRow above
  fresh : ∀ other ∈ above ++ [cell], proposals rounds other.id = []
  applied : job.applied = acceptedIn opening rounds

theorem codeRow_eq_cons {cells : List Cell} {id : Text} {left : List Text}
    (row : codeRow cells = id :: left) :
    ∃ above cell below, cells = above ++ cell :: below ∧ id = cell.id ∧ left = codeRow above := by
  -- The first of the row is the lowest code cell, and the code cells above it are the others.
  rw [codeRow, List.reverse_eq_cons_iff, List.map_eq_append_iff] at row
  obtain ⟨upper, last, parts, before, here⟩ := row
  obtain ⟨cell, rfl, rfl⟩ := List.map_eq_singleton_iff.mp here
  obtain ⟨front, back, rfl, kept, found⟩ := List.filter_eq_append_iff.mp parts
  obtain ⟨between, below, rfl, none, -, -⟩ := List.filter_eq_cons_iff.mp found
  refine ⟨front ++ between, cell, below, (List.append_assoc ..).symm, rfl, ?_⟩
  rw [codeRow, List.filter_append, kept, List.filter_eq_nil_iff.mpr none, List.append_nil, before,
    List.reverse_reverse]

theorem mem_of_codeRow {cells : List Cell} {id : Text} (member : id ∈ codeRow cells) :
    ∃ cell ∈ cells, cell.id = id := by
  rw [codeRow, List.mem_reverse, List.mem_map] at member
  obtain ⟨cell, inside, same⟩ := member
  exact ⟨cell, (List.mem_filter.mp inside).1, same⟩

section Turn

variable {opening now : Session} {rounds : List Round} {job : FormatJob}

/-- If nothing disturbs a job then no cell is passed over. -/
theorem Shows.eq_nil (shows : Shows opening rounds now) {above : List Cell}
    (inside : above ⊆ opening.cells.cells) {skipped : List Text} (among : skipped ⊆ codeRow above)
    (passed : ∀ id ∈ skipped, now.cells.indexOf? id = none) : skipped = [] := by
  refine List.eq_nil_iff_forall_not_mem.mpr fun id member => ?_
  obtain ⟨cell, there, rfl⟩ := mem_of_codeRow (among member)
  have listed : (cell.id : Text) ∈ (now.cells.cells.map shown).map (·.1) := by
    rw [shows.cells, List.map_map]
    exact List.mem_map.mpr ⟨cell, inside there, rfl⟩
  rw [List.map_map] at listed
  obtain ⟨other, here, same⟩ := List.mem_map.mp listed
  exact indexOf?_eq_none_iff.mp (passed _ member) other here same

theorem Shows.turn (target : opening.Sound) (still : opening.editorIsDirty = false)
    (sound : now.Sound) (shows : Shows opening rounds now) {above below : List Cell}
    (cells : opening.cells.cells = above ++ below)
    (fresh : ∀ other ∈ above, proposals rounds other.id = []) {skipped : List Text}
    (row : codeRow above = skipped ++ job.cell :: job.remaining)
    (passed : ∀ id ∈ skipped, now.cells.indexOf? id = none)
    (stands : (now.cells.indexOf? job.cell).bind now.spanOf? = some job.span)
    (applied : job.applied = acceptedIn opening rounds) :
    skipped = [] ∧ ∃ above cell below, Turn opening rounds job above cell below := by
  obtain rfl : skipped = [] :=
    shows.eq_nil (cells ▸ List.subset_append_left _ _) (row ▸ List.subset_append_left _ _) passed
  refine ⟨rfl, ?_⟩
  obtain ⟨upper, cell, lower, rfl, about, remaining⟩ := codeRow_eq_cons row
  have cells : opening.cells.cells = upper ++ cell :: (lower ++ below) := by
    rw [cells, List.append_assoc, List.cons_append]
  have fresh : ∀ other ∈ upper ++ [cell], proposals rounds other.id = [] := by
    intro other member
    apply fresh other
    rw [List.append_cons]
    exact List.mem_append_left _ member
  refine ⟨upper, cell, lower ++ below, cells, about, ?_, remaining, fresh, applied⟩
  -- Cells below may have grown, but they are below.
  obtain ⟨upper', cell', lower', cells', front, here, -⟩ :=
    exists_parts target still cells fresh shows.cells
  obtain ⟨id, -, -⟩ := shown_eq here
  have height := height_eq_of_block (congrArg Prod.snd here)
  have found := CellList.indexOf?_eq sound.coherent.distinct_cells cells'
  rw [about, ← id, found, Option.bind_some, sound.inStep.spanOf? sound.plain cells',
    depth_eq_of_shown front, height] at stands
  exact (Option.some.inj stands).symm

variable {round : Round} {rest : List Round} {response : Response} {above below : List Cell}
  {cell : Cell}

/-- An answer makes of its cell what it makes of it alone, and what it makes is added. -/
theorem Turn.answered (turn : Turn opening (round :: rest) job above cell below)
    (target : opening.Sound) (still : opening.editorIsDirty = false) (sound : now.Sound)
    (settings : now.settings = opening.settings) (shows : Shows opening (round :: rest) now)
    (about : round.cell? = some job.cell) (waiting : round.answer = none)
    (fine : response.error = none) :
    let rounds := { round with answer := some response } :: rest
    let step := Relay.formatStep now job (Json.orNull response.result)
    Shows opening rounds step.2 ∧ (step.1 = .ok (acceptedIn opening rounds) ∨ ∃ fault,
      step.1 = .error fault ∧ (formatAlone opening job.cell response.proposed).1 = .error fault ∧
        ∀ boundary, fault ≠ .crossBoundary boundary) := by
  intro rounds step
  have about : Round.cell? { round with answer := some response } = some job.cell := about
  obtain ⟨clean, cells, outcome⟩ := formatStep_alone target still sound settings shows.clean
    turn.cells turn.fresh shows.cells turn.about turn.place (Json.orNull response.result)
  have proposed : response.proposed = TextEdit.decodeAll (Json.orNull response.result) := by
    simp [Response.proposed, fine]
  -- As long as the round waited, it had proposed nothing and nothing was accepted of it.
  rw [proposals_unanswered waiting, ← turn.about, ← proposed] at cells
  rw [turn.applied, acceptedIn_unanswered _ waiting, ← turn.about, ← proposed] at outcome
  refine ⟨⟨clean, ?_⟩, ?_⟩
  · rw [proposals_answered about rfl]
    exact cells
  · rw [acceptedIn_answered _ about rfl]
    exact outcome

/-- There are still no edits for the cells above. -/
theorem Turn.fresh_above (turn : Turn opening (round :: rest) job above cell below)
    (target : opening.Sound) (about : round.cell? = some job.cell) (waiting : round.answer = none) :
    ∀ other ∈ above,
      proposals ({ round with answer := some response } :: rest) other.id = [] := by
  intro other member
  have about : Round.cell? { round with answer := some response } = some job.cell := about
  have distinct := target.coherent.distinct_cells
  rw [turn.cells, CellList.ids, List.map_append, List.map_cons, List.nodup_append] at distinct
  have apart : other.id ≠ job.cell :=
    turn.about ▸ distinct.2.2 _ (List.mem_map_of_mem member) _ List.mem_cons_self
  have fresh := turn.fresh other (List.mem_append_left _ member)
  rw [proposals_unanswered waiting] at fresh
  rw [proposals_answered about rfl, Function.update_of_ne apart, fresh]

/-- A refusal makes nothing of its cell. -/
theorem Turn.refused (turn : Turn opening (round :: rest) job above cell below)
    (shows : Shows opening (round :: rest) now) (about : round.cell? = some job.cell)
    (waiting : round.answer = none) (refused : response.error.isSome) :
    Shows opening ({ round with answer := some response } :: rest) now := by
  have about : Round.cell? { round with answer := some response } = some job.cell := about
  have nothing : response.proposed = [] := by
    simp [Response.proposed, refused]
  have fresh := turn.fresh cell (by simp)
  have cells := shows.cells
  rw [proposals_unanswered waiting] at fresh cells
  refine ⟨shows.clean, ?_⟩
  rw [proposals_answered about rfl, nothing, turn.about, ← fresh, Function.update_eq_self]
  exact cells

end Turn

/-! ## What a job keeps if nothing disturbs it -/

/-- How a job can end if nothing disturbs it. -/
inductive JobLog.Ends (log : JobLog) (outcome : Except RelayFault AnswerOutcome) : Prop
  | refused {round : Round} {rest : List Round} {response : Response} : log.rounds = round :: rest →
      round.answer = some response → response.error.isSome →
      (∀ id edits, outcome ≠ .ok (.applied id edits)) → Ends log outcome
  | failed {round : Round} {rest : List Round} {response : Response} {id : Text} {fault : RelayFault} :
      log.rounds = round :: rest → round.cell? = some id → round.answer = some response →
      (formatAlone log.opening id response.proposed).1 = .error fault →
      (∀ boundary, fault ≠ .crossBoundary boundary) → outcome = .error fault → Ends log outcome
  | done : (log.rounds.map Round.cell?).reverse = log.row.map some →
      outcome = .ok (.applied log.notebook (acceptedIn log.opening log.rounds)) → Ends log outcome

namespace Desk

/-- What happens leaves a notebook open, shows the same of it and brings nothing into its editor that
is not in its cell. -/
def Calm (notebook : NotebookId) (desk : Desk) (dealing : Dealing) : Prop :=
  ∀ session, desk.workspace.session? notebook = some session →
    ∃ after, (desk.perform dealing).workspace.session? notebook = some after ∧
      after.cells.cells.map shown = session.cells.cells.map shown ∧ after.editorIsDirty = false

/-- How a job stands if nothing disturbed it. -/
structure Undisturbed (desk : Desk) (log : JobLog) (round : Round) (job : FormatJob) : Prop where
  live : Table.get? desk.workspace.surfaces log.surface = some ⟨log.notebook, .facade, 0⟩
  shows : ∃ now, desk.workspace.session? log.notebook = some now ∧ Shows log.opening log.rounds now
  row : (log.rounds.map Round.cell?).reverse ++ job.remaining.map some = log.row.map some
  turn : round.answer = none →
    ∃ above cell below, Turn log.opening log.rounds job above cell below
  ends : ∀ outcome workspace, log.ending = some (outcome, workspace) → log.Ends outcome

variable {desk : Desk} {between : Desk → Dealing → Prop} {log : JobLog} {round : Round}
  {rest : List Round} {job : FormatJob}

theorem Holds.cell? (holds : desk.Holds log round rest job) : round.cell? = some job.cell := by
  rw [Round.cell?, Round.target?, holds.asks.waits]
  rfl

theorem undisturbed_start {surface : SurfaceId} {notebook : NotebookId} {params : Json}
    {dealing : Dealing} {request : Request} {opening : Session} (run : Run (desk.perform dealing))
    (sound : opening.Sound) (still : opening.editorIsDirty = false)
    (live : Table.get? desk.workspace.surfaces surface = some ⟨notebook, .facade, 0⟩)
    (starts : dealing = .request surface "textDocument/formatting" params ∨
      dealing = .requestFlushed surface "textDocument/formatting" params)
    (asked : desk.asks dealing = some request)
    (opened : (desk.perform dealing).workspace.session? notebook = some opening) :
    let round : Round := ⟨request, (desk.perform dealing).relay, opening, none⟩
    let log : JobLog := ⟨surface, notebook, opening, [round], none⟩
    ∃ job, (desk.perform dealing).Holds log round [] job ∧
      (desk.perform dealing).Undisturbed log round job := by
  intro round log
  obtain ⟨skipped, job, row, passed, sum, holds⟩ := holds_start run sound live starts asked opened
  -- Nothing was proposed yet, so the notebook shows what it showed when the job began.
  have none (id : Text) : proposals [round] id = [] := by
    rw [proposals_unanswered rfl]
    rfl
  have shows : Shows opening [round] opening := by
    refine ⟨still, List.map_congr_left fun cell member => ?_⟩
    exact (becomes_eq_shown sound still member (none _)).symm
  obtain ⟨rfl, turn⟩ := shows.turn sound still sound (List.append_nil _).symm
    (fun cell _ => none cell.id) row passed holds.asks.stands
    (sum.trans (show acceptedIn opening [round] = 0 from acceptedIn_unanswered opening rfl).symm)
  refine ⟨job, holds, (asks_formatting live starts asked).1, ⟨opening, opened, shows⟩, ?_,
    fun _ => turn, nofun⟩
  change [round.cell?] ++ job.remaining.map some = (codeRow opening.cells.cells).map some
  rw [holds.cell?, row]
  rfl

theorem Undisturbed.other (undisturbed : desk.Undisturbed log round job) (run : Run desk)
    {dealing : Dealing} (admitted : dealing.Admitted) (calm : desk.Calm log.notebook dealing) :
    (desk.perform dealing).Undisturbed log round job := by
  obtain ⟨live, ⟨now, opened, clean, cells⟩, row, turn, ends⟩ := undisturbed
  obtain ⟨after, opened', same, clean'⟩ := calm now opened
  refine ⟨?_, ⟨after, opened', clean', same.trans cells⟩, row, turn, ends⟩
  exact run.stays live nofun admitted opened'

section Answer

variable {message : Json} {response : Response}

theorem Undisturbed.next (undisturbed : desk.Undisturbed log round job)
    (holds : desk.Holds log round rest job) (logged : Logged between desk log)
    (plain : '\n' ∉ log.opening.settings.tag) (still : log.opening.editorIsDirty = false)
    (awaits : round.Awaits desk message response)
    {request : Request} {session : Session} (asked : desk.asks (.answer message) = some request)
    (opened : (desk.perform (.answer message)).workspace.session? log.notebook = some session) :
    let next : Round := ⟨request, (desk.perform (.answer message)).relay, session, none⟩
    let rounds := { round with answer := some response } :: rest
    ∃ later, (desk.perform (.answer message)).Holds { log with rounds := next :: rounds } next rounds
        later ∧
      (desk.perform (.answer message)).Undisturbed { log with rounds := next :: rounds } next later := by
  intro next rounds
  have leads : desk.Leads (desk.perform (.answer message)) := Leads.still.step _ trivial
  have waiting := holds.unanswered awaits
  obtain ⟨current, skipped, later, before, fine, made, remaining, passed, onward⟩ :=
    holds.next logged plain awaits asked opened
  obtain ⟨live, ⟨now, opened', shows⟩, row, turn, ends⟩ := undisturbed
  obtain rfl := Option.some.inj (before.symm.trans opened')
  obtain ⟨above, cell, below, turn⟩ := turn waiting
  have target := logged.sound_opening plain
  obtain ⟨soundNow, settings⟩ := logged.sound plain .still before
  obtain ⟨sound, -⟩ := logged.sound plain leads opened
  rw [holds.rounds] at turn shows row
  obtain ⟨shows, outcome⟩ :=
    turn.answered target still soundNow settings shows holds.cell? waiting fine
  rw [made] at shows outcome
  have applied : later.applied = acceptedIn log.opening rounds := by
    rcases outcome with total | ⟨fault, failed, -⟩
    · exact Except.ok.inj total
    · cases failed
  have shows : Shows log.opening (next :: rounds) session :=
    ⟨shows.clean, by rw [proposals_unanswered rfl, shows.cells]⟩
  have fresh : ∀ other ∈ above, proposals (next :: rounds) other.id = [] := by
    rw [proposals_unanswered rfl]
    exact turn.fresh_above target holds.cell? waiting
  -- No cell is gone, so the next round is about the next cell of the row.
  rw [turn.remaining] at remaining
  obtain ⟨rfl, following⟩ := shows.turn target still sound turn.cells fresh remaining passed
    onward.asks.stands (applied.trans (acceptedIn_unanswered _ rfl).symm)
  refine ⟨later, onward, ?_, ⟨session, opened, shows⟩, ?_, fun _ => following, ?_⟩
  · exact logged.run.stays live nofun trivial opened
  · have about : next.cell? = some later.cell := onward.cell?
    rw [turn.remaining, remaining] at row
    rw [List.map_cons, List.reverse_cons, about, List.append_assoc]
    exact row
  · intro result workspace ending
    have ended := holds.ended
    rw [waiting, ending] at ended
    cases ended

theorem Undisturbed.last (undisturbed : desk.Undisturbed log round job)
    (holds : desk.Holds log round rest job) (logged : Logged between desk log)
    (plain : '\n' ∉ log.opening.settings.tag) (still : log.opening.editorIsDirty = false)
    (awaits : round.Awaits desk message response) (silent : desk.asks (.answer message) = none) :
    (desk.perform (.answer message)).Undisturbed { log with
      rounds := { round with answer := some response } :: rest
      ending := some ((desk.relay.answer desk.workspace message).1,
        (desk.perform (.answer message)).workspace) }
      { round with answer := some response } job := by
  have run := logged.run
  have leads : desk.Leads (desk.perform (.answer message)) := Leads.still.step _ trivial
  have waiting := holds.unanswered awaits
  obtain ⟨live, ⟨now, opened, shows⟩, row, turn, -⟩ := undisturbed
  obtain ⟨above, cell, below, turn⟩ := turn waiting
  have target := logged.sound_opening plain
  obtain ⟨sound, settings⟩ := logged.sound plain .still opened
  rw [holds.rounds] at turn shows row
  -- However it ends, it is left to say what the notebook shows then and how it ended.
  have settle {later : Session} {outcome : Except RelayFault AnswerOutcome} {workspace : Workspace}
      (opened' : (desk.perform (.answer message)).workspace.session? log.notebook = some later)
      (shows : Shows log.opening ({ round with answer := some response } :: rest) later)
      (ends : JobLog.Ends { log with
        rounds := { round with answer := some response } :: rest
        ending := some (outcome, workspace) } outcome) :
      (desk.perform (.answer message)).Undisturbed { log with
        rounds := { round with answer := some response } :: rest
        ending := some (outcome, workspace) } { round with answer := some response } job := by
    refine ⟨?_, ⟨later, opened', shows⟩, row, nofun, fun result other ending => ?_⟩
    · exact run.stays live nofun trivial opened'
    · obtain ⟨rfl, rfl⟩ := Prod.mk.inj (Option.some.inj ending)
      exact ends
  cases holds.answered run awaits with
  | dropped why same _ unused =>
    -- The surface is still live and its notebook registered, so nothing else is left.
    have refused : response.error.isSome := by
      rcases why with lost | unregistered | refused
      · have resolved : desk.workspace.resolve? log.surface = some ⟨log.notebook, .facade, 0⟩ :=
          resolve?_eq_some_iff.mpr ⟨live, now, opened, nofun⟩
        cases resolved.symm.trans (Origin.of?_eq_none_iff.mp lost)
      · obtain ⟨pending, waits⟩ := Option.isSome_iff_exists.mp awaits.waits
        have registered := run.enrolled _ pending waits
        obtain rfl := holds.waits pending waits
        rw [Relay.addresses?, Option.map_eq_none_iff] at unregistered
        rw [unregistered] at registered
        cases registered
      · exact refused
    refine settle (by rw [same, opened]) (turn.refused shows holds.cell? waiting refused) ?_
    exact .refused rfl rfl refused unused
  | failed fine before made opened' _ result =>
    obtain rfl := Option.some.inj (before.symm.trans opened)
    obtain ⟨shows, outcome⟩ :=
      turn.answered target still sound settings shows holds.cell? waiting fine
    rw [made] at shows outcome
    refine settle opened' shows ?_
    rcases outcome with total | ⟨fault, failed, alone, inside⟩
    · cases total
    · obtain rfl := Except.error.inj failed
      exact .failed rfl holds.cell? rfl alone inside result
  | done fine before made opened' _ result gone =>
    obtain rfl := Option.some.inj (before.symm.trans opened)
    obtain ⟨shows, outcome⟩ :=
      turn.answered target still sound settings shows holds.cell? waiting fine
    rw [made] at shows outcome
    refine settle opened' shows (.done ?_ ?_)
    · obtain ⟨sound, -⟩ := logged.sound plain leads opened'
      have finished : job.remaining = [] := by
        refine shows.eq_nil (?_ : above ⊆ _) ?_ ?_
        · rw [turn.cells]
          exact List.subset_append_left _ _
        · rw [turn.remaining]
          exact List.Subset.refl _
        · exact fun id member => sound.stands_eq_none_iff.mp (gone id member)
      rw [finished, List.map_nil, List.append_nil] at row
      exact row
    · rcases outcome with total | ⟨fault, failed, -⟩
      · rw [result, Except.ok.inj total]
      · cases failed
  | next _ _ _ _ asked => cases silent.symm.trans asked

end Answer

theorem Logged.undisturbed (logged : Logged between desk log)
    (plain : '\n' ∉ log.opening.settings.tag) (still : log.opening.editorIsDirty = false)
    (calm : ∀ desk dealing, between desk dealing → desk.Calm log.notebook dealing) :
    ∃ round rest job, desk.Holds log round rest job ∧ desk.Undisturbed log round job := by
  -- On the log: what happens besides leaves the notebook to the job, and each answer takes its turn.
  induction logged with
  | start run live starts asked opened =>
    have logged : Logged between _ _ := .start run live starts asked opened
    obtain ⟨job, holds, undisturbed⟩ := undisturbed_start logged.run (logged.sound_opening plain) still
      live starts asked opened
    exact ⟨_, _, job, holds, undisturbed⟩
  | @other desk log dealing logged admitted quiet _ ih =>
    obtain ⟨round, rest, job, holds, undisturbed⟩ := ih plain still calm
    exact ⟨round, rest, job, holds.other logged.run dealing admitted,
      undisturbed.other logged.run admitted (calm desk dealing quiet)⟩
  | next logged rounds awaits asked opened ih =>
    obtain ⟨round, rest, job, holds, undisturbed⟩ := ih plain still calm
    obtain ⟨rfl, rfl⟩ := List.cons.inj (rounds.symm.trans holds.rounds)
    obtain ⟨later, after, onward⟩ :=
      undisturbed.next holds logged plain still awaits asked opened
    exact ⟨_, _, later, after, onward⟩
  | last logged rounds awaits silent ih =>
    obtain ⟨round, rest, job, holds, undisturbed⟩ := ih plain still calm
    obtain ⟨rfl, rfl⟩ := List.cons.inj (rounds.symm.trans holds.rounds)
    exact ⟨_, _, job, holds.last logged plain awaits silent,
      undisturbed.last holds logged plain still awaits silent⟩

/-! ## Jobs as a whole -/

/-- The code cells of a notebook are different ones. -/
theorem Logged.nodup_row (logged : Logged between desk log)
    (plain : '\n' ∉ log.opening.settings.tag) : log.row.Nodup := by
  have distinct := (logged.sound_opening plain).coherent.distinct_cells
  rw [JobLog.row, codeRow, List.nodup_reverse]
  exact distinct.sublist (List.filter_sublist.map _)

/-- There are no more rounds than code cells, and all but the last one are answered. -/
theorem Holds.count (holds : desk.Holds log round rest job) :
    log.rounds.countP (·.answer.isSome) ≤ log.row.length ∧
      (log.ending = none → log.rounds.countP (·.answer.isSome) < log.row.length) := by
  have bound := holds.turns.sublist.length_le
  simp only [List.length_append, List.length_reverse, List.length_map, holds.rounds,
    List.length_cons] at bound
  have past := List.countP_eq_length.mpr holds.past
  rw [holds.rounds, List.countP_cons, past]
  constructor
  · split <;> omega
  · intro going
    have waiting := holds.ended
    rw [going] at waiting
    rw [← waiting]
    simp only [Option.isSome_none, Bool.false_eq_true, if_false]
    omega

/-- Whatever happens while a notebook is formatted for a facade, the requests are about code cells as
the job found them, each at most once and from the bottom up, and exactly those that are gone when
their turn comes are passed over. The range of a request is all of its cell in the facade. It is the
same in the shadow as long as the cell is code; else the range in the shadow ends where its last line
starts. There are at most as many answers as code cells, and after the end nothing waits any more. If
nothing else changes the notebook, each cell becomes what the edits for it make of it alone, and a job
that comes to its end had all code cells and tells how many edits were accepted. -/
theorem Logged.formats (logged : Logged between desk log)
    (plain : '\n' ∉ log.opening.settings.tag) :
    log.row.Nodup ∧ (log.rounds.map Round.cell?).reverse.Sublist (log.row.map some) ∧
    (∃ left, Turns log.row log.rounds left ∧ ∀ id edits workspace,
      log.ending = some (.ok (.applied id edits), workspace) →
        ∃ session, workspace.session? log.notebook = some session ∧
          ∀ id ∈ left, session.cells.indexOf? id = none) ∧
    (∀ round ∈ log.rounds, ∃ above cell below, round.IsAbout above cell below) ∧
    log.rounds.countP (·.answer.isSome) ≤ log.row.length ∧
    (log.ending = none → log.rounds.countP (·.answer.isSome) < log.row.length) ∧
    (log.ending.isSome → ∀ round ∈ log.rounds,
      Table.get? desk.relay.pending round.request.id = none) ∧
    ((∀ desk dealing, between desk dealing → desk.Calm log.notebook dealing) →
      log.opening.editorIsDirty = false →
      (∃ now, desk.workspace.session? log.notebook = some now ∧ Shows log.opening log.rounds now) ∧
      ∀ outcome workspace, log.ending = some (outcome, workspace) → log.Ends outcome) := by
  obtain ⟨round, rest, job, holds⟩ := logged.holds plain
  have ordered : (log.rounds.map Round.cell?).reverse.Sublist (log.row.map some) :=
    (List.sublist_append_left _ _).trans holds.turns.sublist
  obtain ⟨count, going⟩ := holds.count
  refine ⟨logged.nodup_row plain, ordered, ⟨job.remaining, holds.turns, holds.finished⟩,
    holds.turns.isAbout, count, going, ?_, ?_⟩
  · intro ended old member
    refine (holds.settled old member).2 ?_
    rw [holds.ended] at ended
    rw [holds.rounds] at member
    rcases List.mem_cons.mp member with rfl | before
    · exact ended
    · exact holds.past old before
  · intro calm still
    obtain ⟨_, _, _, -, undisturbed⟩ := logged.undisturbed plain still calm
    exact ⟨undisturbed.shows, undisturbed.ends⟩

end Desk

open Desk

/-- The answer of a server that replaces parts of the document it was asked about. -/
def replaced (number : Nat) (replacements : List TextEdit) : Json :=
  Json.object [("id", .nat number), ("result", .arr (replacements.map fun replacement =>
    Json.object [("range", replacement.range.encode), ("newText", .str replacement.text)]))]

/-- The upper one of two cells is made prose while it waits. Then the range that is asked for is not its
range in the shadow, which ends at the start of the line. If nothing of this kind happens, then the
edits for the lower cell are made, and those for the upper one are refused because they reach beyond it. -/
theorem format_two_cells : ∃ (session : Session) (desk : Desk),
    Session.ofCells [{ id := "a", kind := .code, source := "a=1" },
      { id := "b", kind := .code, source := "b=2" }] {} = .ok session ∧
    desk = [.insert "/a.ipynb" session, .didOpen ⟨0⟩,
      .request ⟨1⟩ "textDocument/formatting" (Json.object [("options", Json.object [])])].foldl
        Desk.perform { relay := {}, workspace := {} } ∧
    (∃ log round above cell below,
      Logged (fun _ _ => True) ((desk.perform (.operate ⟨0⟩ (.setKind 0 .markdown))).perform
        (.answer (replaced 0 []))) log ∧
      round ∈ log.rounds ∧ round.IsAbout above cell below ∧ cell.kind = .markdown ∧
      round.request.params.get? "range" = some (Range.encode ⟨⟨1, 0⟩, ⟨1, 3⟩⟩) ∧
      (fullRange above cell round.session.shadow).stop.character = 0) ∧
    ∃ log now, Logged (Calm ⟨0⟩) (((desk.perform .drainDiagnostics).perform
        (.answer (replaced 0 [⟨⟨⟨5, 0⟩, ⟨5, 3⟩⟩, "b = 2"⟩]))).perform
          (.answer (replaced 1 [⟨⟨⟨1, 0⟩, ⟨5, 1⟩⟩, "a"⟩]))) log ∧
      Shows log.opening log.rounds now ∧
      now.cells.blocks = [⟨.code, "a=1"⟩, ⟨.code, "b = 2"⟩] ∧
      log.Ends (.ok (.applied ⟨0⟩ 1)) := by
  have start : Session.Reachable {} _ := .cells (rfl : Session.ofCells
    [{ id := "a", kind := .code, source := "a=1" }, { id := "b", kind := .code, source := "b=2" }] {} =
      .ok _)
  have run := ((Desk.Run.start {}).step (.insert "/a.ipynb" _) ⟨_, start⟩).step (.didOpen ⟨0⟩) trivial
  let params := Json.object [("options", Json.object [])]
  have begun (between) : Logged between _ ⟨⟨1⟩, ⟨0⟩, _, [⟨_, _, _, none⟩], none⟩ :=
    .start run (by decide +kernel) (.inl (rfl : Dealing.request ⟨1⟩ _ params = _))
      (Option.some_get (by decide +kernel)).symm (Option.some_get (by decide +kernel)).symm
  refine ⟨_, _, rfl, rfl, ?retyped, ?calm⟩
  case retyped =>
    have retyped := (begun fun _ _ => True).other (.operate ⟨0⟩ (.setKind 0 .markdown)) trivial trivial
      nofun
    have logged := retyped.next rfl
      ⟨(rfl : Response.decode? (replaced 0 []) = some ⟨0, some (.arr []), none⟩), by decide +kernel,
        by decide +kernel⟩
      (Option.some_get (by decide +kernel)).symm (Option.some_get (by decide +kernel)).symm
    obtain ⟨-, -, -, abouts, -⟩ := logged.formats (by decide +kernel)
    obtain ⟨above, cell, below, about⟩ := abouts _ List.mem_cons_self
    have prose : cell.kind = .markdown := by
      have named : some cell.id = some ("a" : Text) :=
        (congrArg (Option.map Prod.fst) about.target).symm.trans (by decide +kernel)
      have member := List.mem_append_right above (List.mem_cons_self : cell ∈ cell :: below)
      rw [← about.cells] at member
      exact (show ∀ other ∈ _, other.id = ("a" : Text) → other.kind = .markdown from
        by decide +kernel) cell member (Option.some.inj named)
    exact ⟨_, _, above, cell, below, logged, List.mem_cons_self, about, prose, by decide +kernel,
      about.prose (by rw [prose]; rfl)⟩
  case calm =>
    have first := (begun (Calm ⟨0⟩)).other .drainDiagnostics trivial (fun session opened =>
      ⟨session, opened, rfl, (show ∀ session ∈ Workspace.session? _ ⟨0⟩,
        session.editorIsDirty = false from by decide +kernel) session opened⟩) nofun
    let lower : List TextEdit := [⟨⟨⟨5, 0⟩, ⟨5, 3⟩⟩, "b = 2"⟩]
    let upper : List TextEdit := [⟨⟨⟨1, 0⟩, ⟨5, 1⟩⟩, "a"⟩]
    have second := first.next rfl
      ⟨(rfl : Response.decode? (replaced 0 lower) = some ⟨0, _, none⟩), by decide +kernel,
        by decide +kernel⟩
      (Option.some_get (by decide +kernel)).symm (Option.some_get (by decide +kernel)).symm
    have logged := second.last rfl
      ⟨(rfl : Response.decode? (replaced 1 upper) = some ⟨1, _, none⟩), by decide +kernel,
        by decide +kernel⟩ (by decide +kernel)
    obtain ⟨-, -, -, -, -, -, -, alone⟩ := logged.formats (by decide +kernel)
    obtain ⟨⟨now, opened, shows⟩, ends⟩ := alone (fun _ _ calm => calm) (by decide +kernel)
    have ended := ends _ _ rfl
    refine ⟨_, now, logged, shows, ?_, (congrArg (JobLog.Ends _) ?_).mp ended⟩
    · exact (show ∀ now ∈ Workspace.session? _ ⟨0⟩,
        now.cells.blocks = [⟨.code, "a=1"⟩, ⟨.code, "b = 2"⟩] from by decide +kernel) now opened
    · decide +kernel

end Notebook.Lsp

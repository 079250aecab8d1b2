import Notebook.Proofs.Session.Progress
import Notebook.Proofs.Session.Refusal
/-!
# Reports on cells that are not code any more

Only code is executed, and a cell that is made prose loses its outputs and its execution count. But the
kernel may not be through with it by then. Its ticket stays valid, and what is reported under it goes to
the cell whatever its kind is. So what prose has of outputs, and the execution count it shows, are the
late reports, those that arrived after it was made prose. There are no others.
-/
namespace Notebook

open CellList (ids)

namespace Event

/-- The output that an event reports. -/
def output? : Event → Option Output
  | output _ reported => some reported
  | _ => none

/-- The execution count that an event tells. -/
def count? : Event → Option Nat
  | executeInput _ count => count
  | output _ reported => (Members.get? reported.fields "execution_count").bind Json.asNat?
  | _ => none

end Event

namespace Deed

/-- The event that the deed applies to the cell of an identity. -/
def applied? (deed : Deed) (id : Text) : Option Event :=
  match deed.operation with
  | .applyEvent event => if (deed.before.applyEvent event).1 = .applied id then some event else none
  | _ => none

/-- The deed makes the cell of an identity prose, or another kind of prose. -/
def makesProse (deed : Deed) (id : Text) : Bool :=
  match deed.operation with
  | .setKind index kind => !kind.isCode && (deed.before.setKind index kind).1.isOk &&
      (ids deed.before.cells.cells)[index]? == some id
  | _ => false

end Deed

/-- What was done since the cell of an identity was last made prose, or since the notebook was opened. -/
def sinceProse (id : Text) (past : List Deed) : List Deed := past.takeWhile fun deed => !deed.makesProse id

/-- What was done until then. -/
def beforeProse (id : Text) (past : List Deed) : List Deed := past.dropWhile fun deed => !deed.makesProse id

/-- The events that deeds applied to the cell of an identity, the first one first. -/
def reports (id : Text) (deeds : List Deed) : List Event := (deeds.filterMap (·.applied? id)).reverse

namespace CellList

open Session (exists_around modify_around)

variable {before middle after list : CellList}

/-- Every cell is one from before, perhaps with another source, or it is blank and nobody has seen its
identity. -/
structure Inherits (before after : CellList) : Prop where
  issued : ∀ id ∈ before.issued, id ∈ after.issued
  cells : ∀ cell ∈ after.held, (∃ old ∈ before.held, ∃ source, cell = { old with source }) ∨
    Blank cell ∧ cell.id ∉ before.issued

theorem Inherits.refl (list : CellList) : list.Inherits list :=
  ⟨fun _ => id, fun cell member => .inl ⟨cell, member, cell.source, rfl⟩⟩

theorem Inherits.trans (there : before.Inherits middle) (onward : middle.Inherits after) :
    before.Inherits after where
  issued id known := onward.issued id (there.issued id known)
  cells cell member := by
    rcases onward.cells cell member with ⟨old, known, source, rfl⟩ | ⟨blank, fresh⟩
    · rcases there.cells old known with ⟨first, here, _, rfl⟩ | ⟨blank, fresh⟩
      · exact .inl ⟨first, here, source, rfl⟩
      · refine .inr ⟨?_, fresh⟩
        rw [blank]
        rfl
    · exact .inr ⟨blank, fun known => fresh (there.issued _ known)⟩

/-- Nothing is new. -/
theorem inherits_of_held (issued : after.issued = before.issued)
    (fewer : ∀ cell ∈ after.held, cell ∈ before.held) : before.Inherits after where
  issued _ known := issued ▸ known
  cells cell member := .inl ⟨cell, fewer cell member, cell.source, rfl⟩

theorem inherits_modifyAt (list : CellList) (index : Nat) (source : Text) :
    list.Inherits (list.modifyAt index fun cell => { cell with source }) where
  issued _ known := known
  cells cell member := by
    rcases mem_held_modifyAt member with same | ⟨old, there, rfl⟩
    · exact .inl ⟨cell, same, cell.source, rfl⟩
    · exact .inl ⟨old, there, source, rfl⟩

theorem inherits_insert {index : Nat} {kind : Kind} {source id : Text}
    (inserted : list.insert index kind source = .ok (id, after)) : list.Inherits after := by
  obtain ⟨perm, removed, rfl, issued⟩ := perm_insert inserted
  refine ⟨fun _ known => issued ▸ List.mem_cons_of_mem _ known, fun cell member => ?_⟩
  rw [mem_held, perm.mem_iff, List.mem_cons, removed, or_assoc] at member
  rcases member with rfl | old
  · exact .inr ⟨rfl, list.freshId_not_issued⟩
  · exact .inl ⟨cell, mem_held.mpr old, cell.source, rfl⟩

theorem inherits_remove {index : Nat} {gone : Cell} (taken : list.remove index = .ok (gone, after)) :
    list.Inherits after := by
  obtain ⟨perm, removed, issued⟩ := perm_remove taken
  refine inherits_of_held issued fun cell member => ?_
  rw [mem_held, perm.mem_iff, List.mem_cons]
  rcases mem_held.mp member with live | remembered
  · exact .inl (.inr live)
  · rw [removed] at remembered
    exact (List.mem_cons.mp (List.mem_of_mem_take remembered)).imp_left .inl

theorem inherits_move {source target : Nat} (moved : list.move source target = .ok after) :
    list.Inherits after := by
  obtain ⟨perm, removed, issued⟩ := perm_move moved
  refine inherits_of_held issued fun cell member => ?_
  rwa [mem_held, perm.mem_iff, removed, ← mem_held] at member

/-- Changing a cell in its place leaves all others. -/
theorem held_modifyAt (coherent : list.Coherent) {index : Nat} {old cell : Cell}
    (here : list.get? index = some old) {change : Cell → Cell}
    (member : cell ∈ (list.modifyAt index change).held) :
    cell = change old ∨ cell ∈ list.held ∧ cell.id ≠ old.id := by
  obtain ⟨above, below, cells, rfl⟩ := exists_around here
  have distinct := coherent.distinct
  rw [cells] at distinct
  rw [held, modifyAt, cells, modify_around] at member
  rw [held, cells]
  simp only [ids, List.map_append, List.map_cons, List.append_assoc, List.cons_append,
    List.nodup_append, List.nodup_cons, List.mem_append, List.mem_cons, List.mem_map] at distinct member ⊢
  grind

theorem inherits_reconcile (list : CellList) (blocks : List Block) :
    list.Inherits (list.reconcile blocks) := by
  obtain ⟨-, -, -, unseen, issued, -, -⟩ := list.reconcile_spec blocks
  refine ⟨fun id known => (issued id).mpr (.inr known), fun cell member => ?_⟩
  rcases mem_held.mp member with live | remembered
  · rcases mem_reconcile live with ⟨old, here, source, rfl⟩ | remembered | ⟨fresh, blank⟩
    · exact .inl ⟨old, mem_held.mpr (.inl here), source, rfl⟩
    · exact .inl ⟨cell, mem_held.mpr (.inr remembered), cell.source, rfl⟩
    · exact .inr ⟨blank, unseen _ fresh⟩
  · exact .inl ⟨cell, mem_held.mpr (mem_removed_reconcile remembered), cell.source, rfl⟩

end CellList

namespace Session

variable {session after : Session} {operation : Operation}

/-! ## What is inherited -/

theorem Phase.inherits (phase : Phase operation session after)
    (apart : operation.concernsExecution = false)
    (keeps : ∀ index kind, operation ≠ .setKind index kind) : session.cells.Inherits after.cells := by
  cases phase with
  | @refreshed _ _ cells facade grouping draft =>
    obtain ⟨editor, refreshed⟩ := refreshViews_eq { session with facade, cells } grouping
    rw [refreshed]
    cases draft with
    | same | unread => exact .refl _
    | inserted _ inserted => exact CellList.inherits_insert inserted
    | removed taken => exact CellList.inherits_remove taken
    | moved moved => exact CellList.inherits_move moved
    | retyped => exact absurd rfl (keeps _ _)
    | edited | read => exact session.cells.inherits_reconcile _
  | written => exact session.cells.inherits_modifyAt _ _
  | queued | reported => cases apart
  | _ => exact .refl _

theorem Phases.inherits (phases : Phases operation session after)
    (apart : operation.concernsExecution = false)
    (keeps : ∀ index kind, operation ≠ .setKind index kind) : session.cells.Inherits after.cells := by
  induction phases with
  | refl => exact .refl _
  | tail _ phase ih => exact ih.trans (phase.inherits apart keeps)

theorem inherits_flush (session : Session) : session.cells.Inherits session.flush.2.cells :=
  (session.phases_flush .commitEditor).inherits rfl nofun

/-- No operation gives a cell another kind, or other outputs, that neither says so nor concerns
executions. -/
theorem inherits_perform (session : Session) {operation : Operation}
    (apart : operation.concernsExecution = false)
    (keeps : ∀ index kind, operation ≠ .setKind index kind) :
    session.cells.Inherits (operation.perform session).2.cells :=
  (session.phases_perform operation).inherits apart keeps

/-- Bringing in what the editor holds leaves every cell in its place. -/
theorem ids_flush (session : Session) : ids session.flush.2.cells.cells = ids session.cells.cells := by
  obtain ⟨middle, -, same, ⟨fault, stopped⟩ | stopped⟩ :=
    session.flushed_passage fun session => (.ok (), session)
  all_goals
    rw [flush, stopped]
    exact same

/-- A change of kind is refused and changes no cell, or it changes the one at the index. -/
theorem cells_setKind (session : Session) (index : Nat) (kind : Kind) :
    (session.setKind index kind).1.isOk = false ∧
        (session.setKind index kind).2.cells = session.flush.2.cells ∨
      ∃ old, session.flush.2.cells.get? index = some old ∧
        (session.setKind index kind).1.isOk = true ∧
        (session.setKind index kind).2.cells =
          session.flush.2.cells.modifyAt index (CellList.retyped kind) := by
  unfold setKind restructured
  rw [flushed_eq]
  split
  next stopped => exact .inl ⟨rfl, by rw [stopped]⟩
  next middle stopped =>
    rw [stopped]
    dsimp only
    split
    next => exact .inl ⟨rfl, rfl⟩
    next result cells changed =>
      have changed := ok_of_map_unit changed
      have within : index < middle.cells.cells.length := by
        simp only [CellList.setKind, bind, Except.bind] at changed
        split at changed
        · cases changed
        next found => exact CellList.checkIndex_ok.mp found
      refine .inr ⟨middle.cells.cells[index], List.getElem?_eq_getElem within, rfl, ?_⟩
      rw [cells_rerender]
      exact CellList.setKind_ok changed

/-- Queueing is refused, changes no cell and issues nothing, or it submits the cell at the index, which
is code, and issues a ticket for it alone. -/
theorem cells_queue (session : Session) (index : Nat) :
    (session.queue index).2.cells = session.flush.2.cells ∧
        (∀ ticket id, ¬Deed.Issues ⟨session, .queue index⟩ ticket id) ∨
      ∃ old, session.flush.2.cells.get? index = some old ∧ old.kind.isCode = true ∧
        (session.queue index).2.cells = session.flush.2.cells.modifyAt index submitted ∧
        ∀ ticket id, Deed.Issues ⟨session, .queue index⟩ ticket id → id = old.id := by
  -- A ticket is issued only with a command.
  have refused {fault : Fault} (answer : (session.queue index).1 = .error fault) (ticket : Nat)
      (id : Text) : ¬Deed.Issues ⟨session, .queue index⟩ ticket id := by
    rintro ⟨_, _, ⟨⟩, queued, -⟩
    cases answer.symm.trans queued
  have place := session.ids_flush
  revert refused
  unfold queue
  rw [flushed_eq]
  split
  next stopped => exact fun refused => .inl ⟨by rw [stopped], refused rfl⟩
  next middle stopped =>
    rw [stopped] at place ⊢
    split
    next => exact fun refused => .inl ⟨rfl, refused rfl⟩
    next cell here =>
      split
      next => exact fun refused => .inl ⟨rfl, refused rfl⟩
      next code =>
        refine fun _ => .inr ⟨cell, here, by simpa using code, rfl, ?_⟩
        rintro ticket id ⟨_, _, ⟨⟩, -, -, there⟩
        rw [← place, ids, List.getElem?_map, show middle.cells.cells[index]? = some cell from here] at there
        exact (Option.some.inj there).symm

/-! ## What is reported -/

section Events

variable {event : Event} {id : Text}

/-- An event is applied to a live cell that its ticket is bound to. -/
theorem bound_of_applied (applied : (session.applyEvent event).1 = .applied id) : ∃ ticket,
    event.ticket = some ticket ∧ Table.get? session.executions ticket = some id ∧
      id ∈ ids session.cells.cells := by
  -- Nothing else is said to be applied: an event without ticket, without cell or for a dead one is not.
  cases carried : event.ticket with
  | none =>
    simp only [applyEvent, carried] at applied
    cases event <;> cases applied
  | some ticket =>
    cases bound : Table.get? session.executions ticket with
    | none =>
      rw [applyEvent_unbound carried bound] at applied
      cases applied
    | some target =>
      by_cases live : target ∈ ids session.cells.cells
      · rw [applyEvent_live carried bound live] at applied
        have same : target = id := by
          cases event <;> simp only [applyTo] at applied <;> grind
        exact same ▸ ⟨ticket, rfl, bound, live⟩
      · rw [applyEvent_missed carried bound live] at applied
        cases applied

/-- What an event makes of the cells: it changes neither their identities nor their kinds, and what is
applied to a cell adds to its outputs and may tell its count. -/
structure Reported (told : Text → Option Event) (change : Cell → Cell) : Prop where
  id : ∀ cell, (change cell).id = cell.id
  kind : ∀ cell, (change cell).kind = cell.kind
  outputs : ∀ cell, (change cell).outputs = cell.outputs ++ ((told cell.id).bind Event.output?).toList
  count : ∀ cell, (change cell).executionCount =
    ((told cell.id).bind Event.count?).or cell.executionCount

/-- What the answer to an event tells of what it made of the cells. -/
def Reports (session : Session) (event : Event) (answer : Reaction × Session) : Prop :=
  ∃ change, answer.2.cells = { session.cells with cells := session.cells.cells.map change } ∧
    Reported (fun id => if answer.1 = .applied id then some event else none) change

variable {answer : Reaction × Session}

theorem reports_still (unapplied : ∀ id, answer.1 ≠ .applied id) (same : answer.2.cells = session.cells) :
    Reports session event answer := by
  refine ⟨fun cell => cell, by rw [same, List.map_id'], ?_⟩
  constructor <;> simp [unapplied]

/-- An event may be applied to a cell and add nothing to it. -/
theorem reports_silent (output : event.output? = none) (count : event.count? = none)
    (same : answer.2.cells = session.cells) : Reports session event answer := by
  have nothing (id : Text) {α : Type} {read : Event → Option α} (none : read event = none) :
      (if answer.1 = .applied id then some event else Option.none).bind read = Option.none := by
    split
    · exact none
    · rfl
  refine ⟨fun cell => cell, by rw [same, List.map_id'], ?_⟩
  constructor <;> simp [nothing, output, count]

/-- Settling cells adds nothing to them. -/
theorem reports_settled (unapplied : ∀ id, answer.1 ≠ .applied id) (some : Cell → Prop)
    [DecidablePred some] (cells : answer.2.cells = { session.cells with
      cells := session.cells.cells.map fun cell => if some cell then settled cell else cell }) :
    Reports session event answer := by
  refine ⟨_, cells, ?_⟩
  constructor
  all_goals
    intro cell
    split <;> simp [unapplied, settled]

theorem reports_applied (distinct : (ids session.cells.cells).Nodup) {alter : Cell → Cell}
    (keeps : ∀ cell, (alter cell).id = cell.id ∧ (alter cell).kind = cell.kind)
    (adds : ∀ cell, (alter cell).outputs = cell.outputs ++ event.output?.toList ∧
      (alter cell).executionCount = event.count?.or cell.executionCount) :
    Reports session event (.applied id, session.withCell id alter) := by
  refine ⟨fun cell => if cell.id = id then alter cell else cell,
    CellList.modifyCell_eq distinct id alter, ?_⟩
  constructor
  all_goals
    intro cell
    by_cases here : cell.id = id
    · simp [here, keeps, adds]
    · simp [here, Ne.symm here]

theorem reports_applyGeneral (distinct : (ids session.cells.cells).Nodup) (event : Event) :
    Reports session event (session.applyGeneral event) := by
  have all : session.settleAll.cells = { session.cells with
      cells := session.cells.cells.map fun cell =>
        if cell.id ∈ session.executions.map (·.2) then settled cell else cell } := by
    rw [settleAll_eq]
    exact foldl_settled distinct session.executions
  cases event with
  | interrupted | restarted | shutdown => exact reports_settled (by rintro _ ⟨⟩) _ all
  | _ => exact reports_still (by rintro _ ⟨⟩) rfl

theorem reports_applyTo (distinct : (ids session.cells.cells).Nodup) (ticket : Nat) (id : Text)
    (event : Event) : Reports session event (session.applyTo ticket id event) := by
  -- Only an output is attached, and only that or an input brings a count.
  cases event with
  | status state carried =>
    simp only [applyTo]
    split
    next => exact reports_applied distinct (fun _ => ⟨rfl, rfl⟩) (by simp [Event.output?, Event.count?])
    next =>
      split
      next =>
        exact reports_applied distinct (fun _ => ⟨rfl, rfl⟩)
          (by simp [Event.output?, Event.count?, settled])
      next => exact reports_still (by rintro _ ⟨⟩) rfl
  | executeRequest | executeInput =>
    exact reports_applied distinct (fun _ => ⟨rfl, rfl⟩) (by simp [Event.output?, Event.count?])
  | output carried reported =>
    exact reports_applied distinct (fun _ => ⟨rfl, rfl⟩) fun _ => ⟨rfl, rfl⟩
  | error message =>
    exact reports_settled (by rintro _ ⟨⟩) (·.id = id) (CellList.modifyCell_eq distinct id settled)
  | namespaceSummary carried summary => exact reports_silent rfl rfl rfl
  | _ => exact reports_still (by rintro _ ⟨⟩) rfl

theorem reports_applyEvent (distinct : (ids session.cells.cells).Nodup) (event : Event) :
    Reports session event (session.applyEvent event) := by
  unfold applyEvent
  split
  next => exact reports_applyGeneral distinct event
  next ticket _ =>
    split
    next => exact reports_still (by rintro _ ⟨⟩) rfl
    next id _ =>
      split
      next => exact reports_still (by rintro _ ⟨⟩) rfl
      next => exact reports_applyTo distinct ticket id event

end Events

end Session

/-! ## What prose is told -/

theorem valid_of_append {later past : List Deed} {ticket : Nat} {id : Text}
    (valid : Valid (later ++ past) ticket id) (unqueued : ∀ deed ∈ later, ¬deed.Issues ticket id) :
    Valid past ticket id := by
  induction later with
  | nil => exact valid
  | cons deed later ih =>
    obtain ⟨here, unqueued⟩ := List.forall_mem_cons.mp unqueued
    exact ih ((valid_cons.mp valid).resolve_left here).1 unqueued

theorem sinceProse_append (id : Text) (past : List Deed) : sinceProse id past ++ beforeProse id past = past :=
  List.takeWhile_append_dropWhile

theorem reports_cons (id : Text) (deed : Deed) (deeds : List Deed) :
    reports id (deed :: deeds) = reports id deeds ++ (deed.applied? id).toList := by
  unfold reports
  cases applied : deed.applied? id <;> simp [applied]

/-- What a cell has of outputs and the count it shows are what was reported on it since it was made
prose, under a ticket that was valid then. It was not queued since. -/
structure Attested (past : List Deed) (cell : Cell) : Prop where
  outputs : cell.outputs = (reports cell.id (sinceProse cell.id past)).filterMap Event.output?
  count : cell.executionCount =
    ((reports cell.id (sinceProse cell.id past)).filterMap Event.count?).getLast?
  late : ∀ event ∈ reports cell.id (sinceProse cell.id past), ∃ ticket,
    event.ticket = some ticket ∧ Valid (beforeProse cell.id past) ticket cell.id
  unqueued : ∀ deed ∈ sinceProse cell.id past, ∀ ticket, ¬deed.Issues ticket cell.id

variable {past : List Deed} {deed : Deed} {cell : Cell}

/-- A cell that is made prose is bare. -/
theorem attested_of_makesProse (prose : deed.makesProse cell.id = true) (outputs : cell.outputs = [])
    (count : cell.executionCount = none) : Attested (deed :: past) cell := by
  have since : sinceProse cell.id (deed :: past) = [] := by simp [sinceProse, prose]
  constructor <;> simp [since, outputs, count, reports]

/-- So is one that nothing was done to. -/
theorem attested_of_unseen (unseen : ∀ deed ∈ past, deed.applied? cell.id = none ∧
      ∀ ticket, ¬deed.Issues ticket cell.id) (outputs : cell.outputs = [])
    (count : cell.executionCount = none) : Attested past cell := by
  have within : sinceProse cell.id past ⊆ past := List.takeWhile_subset _
  have silent : reports cell.id (sinceProse cell.id past) = [] := by
    simp only [reports, List.reverse_eq_nil_iff, List.filterMap_eq_nil_iff]
    exact fun deed member => (unseen deed (within member)).1
  refine ⟨?_, ?_, ?_, fun deed member => (unseen deed (within member)).2⟩
  all_goals rw [silent]
  · exact outputs
  · exact count
  · exact List.forall_mem_nil _

/-- A deed adds to what the cell was told the event that it applies to it. -/
theorem Attested.cons (told : Attested past cell) (keeps : deed.makesProse cell.id = false)
    (unqueued : ∀ ticket, ¬deed.Issues ticket cell.id)
    (bound : ∀ event, deed.applied? cell.id = some event →
      ∃ ticket, event.ticket = some ticket ∧ Valid past ticket cell.id) {after : Cell}
    (id : after.id = cell.id)
    (outputs : after.outputs = cell.outputs ++ ((deed.applied? cell.id).bind Event.output?).toList)
    (count : after.executionCount = ((deed.applied? cell.id).bind Event.count?).or cell.executionCount) :
    Attested (deed :: past) after := by
  -- The deed leaves the cell prose, so the log since then grows by it and the log before stays.
  have since : sinceProse cell.id (deed :: past) = deed :: sinceProse cell.id past := by
    simp [sinceProse, keeps]
  have before : beforeProse cell.id (deed :: past) = beforeProse cell.id past := by
    simp [beforeProse, keeps]
  have read {α : Type} (read : Event → Option α) : (deed.applied? cell.id).toList.filterMap read =
      ((deed.applied? cell.id).bind read).toList := by
    cases deed.applied? cell.id with
    | none => rfl
    | some event => cases known : read event <;> simp [known]
  constructor <;> simp only [id, since, before, reports_cons, List.filterMap_append, read]
  · rw [outputs, told.outputs]
  · rw [count, told.count, List.getLast?_append]
    cases (deed.applied? cell.id).bind Event.count? <;> rfl
  · rw [List.forall_mem_append]
    refine ⟨told.late, fun event member => ?_⟩
    obtain ⟨ticket, carried, valid⟩ := bound event (by simpa using member)
    rw [← sinceProse_append cell.id past] at valid
    exact ⟨ticket, carried, valid_of_append valid fun deed member => told.unqueued deed member ticket⟩
  · exact List.forall_mem_cons.mpr ⟨unqueued, told.unqueued⟩

/-- Only a change of kind makes a cell prose. -/
theorem makesProse_eq_false (keeps : ∀ index kind, deed.operation ≠ .setKind index kind) (id : Text) :
    deed.makesProse id = false := by
  unfold Deed.makesProse
  split
  next index kind same => exact absurd same (keeps index kind)
  next => rfl

/-- Only an event is applied to a cell. -/
theorem applied?_eq_none (silent : ∀ event, deed.operation ≠ .applyEvent event) (id : Text) :
    deed.applied? id = none := by
  unfold Deed.applied?
  split
  next event same => exact absurd same (silent event)
  next => rfl

/-- A deed that tells a cell nothing leaves it what it was told. -/
theorem Attested.quiet (told : Attested past cell) (keeps : deed.makesProse cell.id = false)
    (unqueued : ∀ ticket, ¬deed.Issues ticket cell.id) (silent : deed.applied? cell.id = none) :
    Attested (deed :: past) cell :=
  told.cons keeps unqueued (by simp [silent]) rfl (by simp [silent]) (by simp [silent])

namespace Session

variable {settings : Settings} {opened session : Session}

/-- The past tells all that the cells which are prose have of outputs and counts, and nothing about
identities that were not issued. -/
structure Recorded (past : List Deed) (session : Session) : Prop where
  unseen : ∀ deed ∈ past, ∀ id ∉ session.cells.issued,
    deed.applied? id = none ∧ ∀ ticket, ¬deed.Issues ticket id
  told : ∀ cell ∈ session.cells.held, cell.kind.isCode = false → Attested past cell

/-- A deed tells nothing about cells that were not live. -/
theorem silent_of_unissued (coherent : session.cells.Coherent) (operation : Operation) (id : Text)
    (unseen : id ∉ session.cells.issued) :
    Deed.applied? ⟨session, operation⟩ id = none ∧
      ∀ ticket, ¬Deed.Issues ⟨session, operation⟩ ticket id := by
  have away : id ∉ ids session.cells.cells := fun live =>
    unseen (coherent.issued id (List.mem_append_left _ live))
  constructor
  · unfold Deed.applied?
    split
    next event same =>
      refine if_neg fun applied => ?_
      obtain ⟨_, -, -, live⟩ := bound_of_applied applied
      exact away live
    next => rfl
  · rintro ticket ⟨index, _, -, -, -, there⟩
    exact away (List.mem_of_getElem? there)

/-- Cells that are inherited were told what they were told before, and fresh ones nothing. -/
theorem Recorded.inherited (recorded : Recorded past session) {cells : CellList}
    (inherits : session.cells.Inherits cells) (member : cell ∈ cells.held)
    (prose : cell.kind.isCode = false) : Attested past cell := by
  rcases inherits.cells cell member with ⟨old, known, source, rfl⟩ | ⟨blank, fresh⟩
  · obtain ⟨outputs, count, late, unqueued⟩ := recorded.told old known prose
    exact ⟨outputs, count, late, unqueued⟩
  · refine attested_of_unseen (fun deed member => recorded.unseen deed member _ fresh) ?_ ?_
    all_goals
      rw [blank]

/-- A change of kind makes a cell bare, if it makes it prose, and tells the others nothing. -/
theorem Recorded.attested_setKind (recorded : Recorded past session) (coherent : session.cells.Coherent)
    {index : Nat} {kind : Kind} (member : cell ∈ (session.setKind index kind).2.cells.held)
    (prose : cell.kind.isCode = false) : Attested (⟨session, .setKind index kind⟩ :: past) cell := by
  have inherits := session.inherits_flush
  have apart : (Operation.setKind index kind).concernsExecution = false := rfl
  have unqueued (ticket : Nat) := (session.passive apart ticket cell.id).1
  have silent : Deed.applied? ⟨session, .setKind index kind⟩ cell.id = none := rfl
  rcases session.cells_setKind index kind with ⟨refused, same⟩ | ⟨old, here, done, changed⟩
  · have keeps : Deed.makesProse ⟨session, .setKind index kind⟩ cell.id = false := by
      simp [Deed.makesProse, refused]
    exact (recorded.inherited inherits (same ▸ member) prose).quiet keeps unqueued silent
  · have middle : session.flush.2.cells.Coherent :=
      ((session.phases_flush .commitEditor).passage rfl).cells.coherent coherent
    have place : (ids session.cells.cells)[index]? = some old.id := by
      rw [← session.ids_flush, ids, List.getElem?_map]
      exact congrArg (Option.map Cell.id) here
    rw [changed] at member
    -- The cell that was retyped starts a log of its own; for the others nothing was reported.
    rcases CellList.held_modifyAt middle here member with rfl | ⟨known, other⟩
    · have same : kind.isCode = false := by
        unfold CellList.retyped at prose
        split at prose <;> simp_all
      refine attested_of_makesProse ?_ ?_ ?_
      · simp [Deed.makesProse, same, done, place]
      all_goals simp [CellList.retyped, same]
    · have keeps : Deed.makesProse ⟨session, .setKind index kind⟩ cell.id = false := by
        simp [Deed.makesProse, place, other.symm]
      exact (recorded.inherited inherits known prose).quiet keeps unqueued silent

/-- Only code is queued, so prose is told nothing. -/
theorem Recorded.attested_queue (recorded : Recorded past session) (coherent : session.cells.Coherent)
    {index : Nat} (member : cell ∈ (session.queue index).2.cells.held)
    (prose : cell.kind.isCode = false) : Attested (⟨session, .queue index⟩ :: past) cell := by
  have inherits := session.inherits_flush
  rcases session.cells_queue index with ⟨same, unqueued⟩ | ⟨old, here, code, changed, issues⟩
  · exact (recorded.inherited inherits (same ▸ member) prose).quiet rfl (fun _ => unqueued _ _) rfl
  · have middle : session.flush.2.cells.Coherent :=
      ((session.phases_flush .commitEditor).passage rfl).cells.coherent coherent
    rw [changed] at member
    rcases CellList.held_modifyAt middle here member with rfl | ⟨known, other⟩
    · cases code.symm.trans prose
    · exact (recorded.inherited inherits known prose).quiet rfl
        (fun ticket issued => other (issues ticket _ issued)) rfl

theorem Annals.attested_applyEvent (annals : Annals opened past session) (start : Opened settings opened)
    (recorded : Recorded past session) (event : Event)
    (member : cell ∈ (session.applyEvent event).2.cells.held) (prose : cell.kind.isCode = false) :
    Attested (⟨session, .applyEvent event⟩ :: past) cell := by
  have coherent := (annals.books start).coherent
  obtain ⟨change, cells, reported⟩ := reports_applyEvent coherent.distinct_cells event
  have unqueued := session.not_issues_applyEvent event
  rw [cells] at member
  rcases CellList.mem_held.mp member with live | remembered
  · obtain ⟨old, here, rfl⟩ := List.mem_map.mp live
    rw [reported.kind] at prose
    refine (recorded.told old (CellList.mem_held.mpr (.inl here)) prose).cons rfl
      (fun ticket => unqueued ticket _) (fun told applied => ?_) (reported.id old)
      (reported.outputs old) (reported.count old)
    -- What is applied to a cell comes with a ticket that is bound to it, so it is valid.
    obtain ⟨reached, rfl⟩ : (session.applyEvent event).1 = .applied old.id ∧ event = told := by
      simpa [Deed.applied?] using applied
    obtain ⟨ticket, carried, bound, -⟩ := bound_of_applied reached
    exact ⟨ticket, carried, (annals.get?_executions start ticket _).mp bound⟩
  · refine (recorded.told cell (CellList.mem_held.mpr (.inr remembered)) prose).quiet rfl
      (fun ticket => unqueued ticket _) (if_neg fun applied => ?_)
    obtain ⟨_, -, -, live⟩ := bound_of_applied applied
    exact (List.nodup_append.mp coherent.distinct).2.2 _ live _ (List.mem_map_of_mem remembered) rfl

theorem Annals.recorded (start : Opened settings opened)
    (bare : ∀ cell ∈ opened.cells.cells, cell.kind.isCode = false →
      cell.outputs = [] ∧ cell.executionCount = none) (annals : Annals opened past session) :
    Recorded past session := by
  induction annals with
  | opened =>
    refine ⟨List.forall_mem_nil _, fun cell member prose => ?_⟩
    rw [CellList.held, start.removed, List.append_nil] at member
    obtain ⟨outputs, count⟩ := bare cell member prose
    exact attested_of_unseen (List.forall_mem_nil _) outputs count
  | @step past session annals operation ih =>
    have coherent := (annals.books start).coherent
    -- What was issued before is issued afterwards, so nothing was told about what is not issued then.
    have goes (grows : ∀ id ∈ session.cells.issued, id ∈ (operation.perform session).2.cells.issued)
        (told : ∀ cell ∈ (operation.perform session).2.cells.held, cell.kind.isCode = false →
          Attested (⟨session, operation⟩ :: past) cell) :
        Recorded (⟨session, operation⟩ :: past) (operation.perform session).2 := by
      refine ⟨List.forall_mem_cons.mpr ⟨fun id unseen => ?_, fun deed member id unseen => ?_⟩, told⟩
      · exact silent_of_unissued coherent operation id fun known => unseen (grows id known)
      · exact ih.unseen deed member id fun known => unseen (grows id known)
    have passive (apart : operation.concernsExecution = false)
        (keeps : ∀ index kind, operation ≠ .setKind index kind) :
        Recorded (⟨session, operation⟩ :: past) (operation.perform session).2 := by
      have inherits := session.inherits_perform apart keeps
      refine goes inherits.issued fun cell member prose => ?_
      refine (ih.inherited inherits member prose).quiet (makesProse_eq_false keeps _)
        (fun ticket => (session.passive apart ticket _).1) (applied?_eq_none ?_ _)
      rintro event rfl
      cases apart
    have brought := session.inherits_flush.issued
    cases operation with
    | setKind index kind =>
      refine goes ?_ fun cell => ih.attested_setKind coherent
      change ∀ id ∈ _, id ∈ (session.setKind index kind).2.cells.issued
      rcases session.cells_setKind index kind with ⟨-, same⟩ | ⟨_, -, -, changed⟩
      · exact same ▸ brought
      · exact changed ▸ brought
    | queue index =>
      refine goes ?_ fun cell => ih.attested_queue coherent
      change ∀ id ∈ _, id ∈ (session.queue index).2.cells.issued
      rcases session.cells_queue index with ⟨same, -⟩ | ⟨_, -, -, changed, -⟩
      · exact same ▸ brought
      · exact changed ▸ brought
    | applyEvent event =>
      refine goes ?_ fun cell => annals.attested_applyEvent start ih event
      change ∀ id ∈ _, id ∈ (session.applyEvent event).2.cells.issued
      obtain ⟨_, cells, -⟩ := reports_applyEvent coherent.distinct_cells event
      exact cells ▸ fun _ known => known
    | _ => exact passive rfl (by simp)

/-- Whatever was done since a notebook was opened whose prose is bare, and whatever the kernel reported:
the outputs of a live cell that is prose are those that events reported which were applied to it since it
was last made prose, and its execution count is the last one they told. So it is bare exactly if none of
them reported any. Each of these events came with a ticket that was valid for the cell when it was made
prose. So if there was no such ticket then, the cell is bare ever since. -/
theorem Annals.prose_told (start : Opened settings opened)
    (bare : ∀ cell ∈ opened.cells.cells, cell.kind.isCode = false →
      cell.outputs = [] ∧ cell.executionCount = none)
    (annals : Annals opened past session) (live : cell ∈ session.cells.cells)
    (prose : cell.kind.isCode = false) :
    let late := reports cell.id (sinceProse cell.id past)
    cell.outputs = late.filterMap Event.output? ∧
    cell.executionCount = (late.filterMap Event.count?).getLast? ∧
    (cell.outputs = [] ∧ cell.executionCount = none ↔
      ∀ event ∈ late, event.output? = none ∧ event.count? = none) ∧
    (∀ event ∈ late, ∃ ticket,
      event.ticket = some ticket ∧ Valid (beforeProse cell.id past) ticket cell.id) ∧
    ((∀ ticket, ¬Valid (beforeProse cell.id past) ticket cell.id) →
      cell.outputs = [] ∧ cell.executionCount = none) := by
  have told := (annals.recorded start bare).told cell (CellList.mem_held.mpr (.inl live)) prose
  have bare_iff : cell.outputs = [] ∧ cell.executionCount = none ↔
      ∀ event ∈ reports cell.id (sinceProse cell.id past), event.output? = none ∧ event.count? = none := by
    rw [told.outputs, told.count, List.getLast?_eq_none_iff, List.filterMap_eq_nil_iff,
      List.filterMap_eq_nil_iff]
    exact forall₂_and.symm
  refine ⟨told.outputs, told.count, bare_iff, told.late, fun none => bare_iff.mpr fun event member => ?_⟩
  obtain ⟨ticket, -, valid⟩ := told.late event member
  exact absurd valid (none ticket)

/-- So a cell that was queued as code and then made prose has the output that is reported only then, and
the count that goes with it. -/
theorem prose_told_late : ∃ opened session past, ∃ result : Event, ∃ cell : Cell,
    Session.ofCells [{ id := "a", kind := .code, source := "x = 1" }] {} = .ok opened ∧
    Annals opened past session ∧
    past.map (·.operation) = [.applyEvent result, .setKind 0 .markdown, .queue 0] ∧
    result = .output (some 0) ⟨"execute_result", [("execution_count", .number (.natural 3))]⟩ ∧
    session.cells.cells = [cell] ∧ cell.kind = .markdown ∧
    (reports "a" (sinceProse "a" past)).length = 1 ∧
    cell.outputs = (reports "a" (sinceProse "a" past)).filterMap Event.output? ∧
    cell.executionCount = ((reports "a" (sinceProse "a" past)).filterMap Event.count?).getLast? ∧
    cell.executionCount = some 3 := by
  have start : Opened {} _ := .cells (rfl :
    Session.ofCells [{ id := "a", kind := .code, source := "x = 1" }] {} = .ok _)
  have annals := ((start.annals.step (.queue 0)).step (.setKind 0 .markdown)).step
    (.applyEvent (.output (some 0) ⟨"execute_result", [("execution_count", .number (.natural 3))]⟩))
  let cell : Cell :=
    { id := "a", kind := .markdown, source := "x = 1", progress := .queued
      outputs := [⟨"execute_result", [("execution_count", .number (.natural 3))]⟩], executionCount := some 3 }
  obtain ⟨outputs, count, -⟩ := annals.prose_told start (by decide +kernel)
    (show cell ∈ _ by decide +kernel) rfl
  exact ⟨_, _, _, _, cell, rfl, annals, rfl, rfl, by decide +kernel, rfl, by decide +kernel,
    outputs, count, rfl⟩

end Session

end Notebook

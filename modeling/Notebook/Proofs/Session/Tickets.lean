import Notebook.Proofs.Session.Passage
/-!
# Which tickets are valid

The table of executions sums up all that was done since the notebook was opened: it binds a ticket to a
cell exactly as long as the ticket, once issued for that cell, was not ended by a later deed. So an
output goes to the cell that was queued with its ticket, wherever that cell stands by then, or nowhere.
-/
namespace Notebook

open CellList (ids)

namespace Session

/-- A session as it is right after a notebook was opened. -/
inductive Opened (settings : Settings) : Session → Prop
  | cells {cells : List Cell} {session : Session} :
      Session.ofCells cells settings = .ok session → Opened settings session
  | text {text : Text} {session : Session} :
      Session.ofText text settings = .ok session → Opened settings session

end Session

/-- An operation, and the session that it was performed on. -/
structure Deed where
  before : Session
  operation : Operation

/-- What was done to a session since it was opened, the last deed first. -/
inductive Session.Annals (opened : Session) : List Deed → Session → Prop
  | opened : Annals opened [] opened
  | step {past : List Deed} {session : Session} : Annals opened past session →
      (operation : Operation) →
      Annals opened (⟨session, operation⟩ :: past) (operation.perform session).2

namespace Session

theorem Opened.annals {settings : Settings} {session : Session} (_ : Opened settings session) :
    Annals session [] session := .opened

/-- Every reachable session has annals. -/
theorem reachable_iff_annals {settings : Settings} {session : Session} :
    Reachable settings session ↔ ∃ opened past, Opened settings opened ∧ Annals opened past session := by
  constructor
  · intro reachable
    induction reachable with
    | cells loaded => exact ⟨_, [], .cells loaded, .opened⟩
    | text loaded => exact ⟨_, [], .text loaded, .opened⟩
    | step _ operation ih =>
      obtain ⟨opened, past, start, annals⟩ := ih
      exact ⟨opened, _, start, annals.step operation⟩
  · rintro ⟨opened, past, start, annals⟩
    induction annals with
    | opened =>
      cases start with
      | cells loaded => exact .cells loaded
      | text loaded => exact .text loaded
    | step _ operation ih => exact ih.step operation

end Session

namespace Deed

/-- The deed queued the cell of an identity, and the execution got a ticket. -/
def Issues (deed : Deed) (ticket : Nat) (id : Text) : Prop :=
  ∃ index command, deed.operation = .queue index ∧ (deed.before.queue index).1 = .ok command ∧
    command.ticket = ticket ∧ (ids deed.before.cells.cells)[index]? = some id

/-- After the deed a ticket that was issued for a cell is not valid any more. -/
inductive Ends (deed : Deed) (ticket : Nat) (id : Text) : Prop
  /-- The cell is queued again. -/
  | requeued {other : Nat} : deed.Issues other id → Ends deed ticket id
  | restarted : deed.operation = .applyEvent .restarted → Ends deed ticket id
  | shutdown : deed.operation = .applyEvent .shutdown → Ends deed ticket id
  /-- The summary of the namespace that belongs to the ticket is applied. -/
  | summarized {summary target : Text} :
      deed.operation = .applyEvent (.namespaceSummary (some ticket) summary) →
      (deed.before.applyEvent (.namespaceSummary (some ticket) summary)).1 = .applied target →
      Ends deed ticket id
  /-- An event with the ticket arrives while the cell is not live. -/
  | missed {event : Event} : deed.operation = .applyEvent event → event.ticket = some ticket →
      id ∉ ids deed.before.cells.cells → Ends deed ticket id

end Deed

/-- A ticket was issued for a cell, and nothing ended it since. -/
def Valid (past : List Deed) (ticket : Nat) (id : Text) : Prop :=
  ∃ later deed earlier, past = later ++ deed :: earlier ∧ deed.Issues ticket id ∧
    ∀ other ∈ later, ¬other.Ends ticket id

theorem valid_nil (ticket : Nat) (id : Text) : ¬Valid [] ticket id := by
  rintro ⟨later, deed, earlier, split, -⟩
  exact List.append_ne_nil_of_right_ne_nil later (List.cons_ne_nil deed earlier) split.symm

theorem valid_cons {deed : Deed} {past : List Deed} {ticket : Nat} {id : Text} :
    Valid (deed :: past) ticket id ↔
      deed.Issues ticket id ∨ Valid past ticket id ∧ ¬deed.Ends ticket id := by
  constructor
  · rintro ⟨later, issuing, earlier, split, issued, kept⟩
    cases later with
    | nil =>
      cases split
      exact .inl issued
    | cons last later =>
      cases split
      obtain ⟨here, kept⟩ := List.forall_mem_cons.mp kept
      exact .inr ⟨⟨later, issuing, earlier, rfl, issued, kept⟩, here⟩
  · rintro (issued | ⟨⟨later, issuing, earlier, rfl, issued, kept⟩, here⟩)
    · exact ⟨[], deed, past, rfl, issued, List.forall_mem_nil _⟩
    · exact ⟨deed :: later, issuing, earlier, rfl, issued, List.forall_mem_cons.mpr ⟨here, kept⟩⟩

namespace Session

variable {settings : Settings} {session after : Session}

/-! ## The table of executions -/

/-- Tickets are bound once and were issued, and no cell has two of them. -/
structure Books (session : Session) : Prop where
  coherent : session.cells.Coherent
  distinct : session.executions.Distinct
  issued : ∀ entry ∈ session.executions, entry.1 < session.nextTicket
  apart : (session.executions.map (·.2)).Nodup

theorem Books.of_sublist (books : session.Books) (coherent : after.cells.Coherent)
    (fewer : after.executions.Sublist session.executions)
    (nextTicket : after.nextTicket = session.nextTicket) : after.Books where
  coherent := coherent
  distinct := books.distinct.sublist (fewer.map _)
  issued entry member := nextTicket ▸ books.issued entry (fewer.subset member)
  apart := books.apart.sublist (fewer.map _)

theorem Books.passage (books : session.Books) (passage : Passage session after) : after.Books :=
  books.of_sublist (passage.cells.coherent books.coherent) (passage.executions ▸ .refl _)
    passage.nextTicket

/-- A notebook is opened by loading cells, and no cell was executed. -/
theorem Opened.loaded (start : Opened settings session) :
    session.executions = [] ∧ session.nextTicket = 0 ∧
      ∃ cells, session.cells = CellList.ofCells cells := by
  have built {file : File} {cells : List Cell} (built : build file cells settings = .ok session) :
      session.executions = [] ∧ session.nextTicket = 0 ∧
        ∃ cells, session.cells = CellList.ofCells cells := by
    obtain ⟨-, rfl⟩ := build_eq_ok built
    exact ⟨rfl, rfl, cells, rfl⟩
  cases start with
  | cells loaded => exact built loaded
  | text loaded =>
    obtain ⟨file, cells, made⟩ := build_of_ofText loaded
    exact built made

theorem Opened.books (start : Opened settings session) : session.Books := by
  obtain ⟨executions, -, cells, loaded⟩ := start.loaded
  refine ⟨?_, ?_, ?_, ?_⟩
  · rw [loaded]
    exact CellList.coherent_ofCells cells
  all_goals simp [executions, Table.Distinct]

/-! ## Queueing -/

/-- Queueing is refused and touches no execution, or the cell at the index gets the next ticket. -/
theorem queue_cases (session : Session) (index : Nat) : ∃ middle, Passage session middle ∧
    ((∃ fault, session.queue index = (.error fault, middle)) ∨
      ∃ command cell, middle.cells.get? index = some cell ∧
        (ids session.cells.cells)[index]? = some cell.id ∧ command.ticket = session.nextTicket ∧
        session.queue index = (.ok command, middle.ticketed index cell.id)) := by
  unfold queue
  obtain ⟨middle, passage, places, ⟨fault, refused⟩ | done⟩ := session.flushed_passage _
  · exact ⟨middle, passage, .inl ⟨fault, refused⟩⟩
  · refine ⟨middle, passage, ?_⟩
    rw [done]
    split
    next => exact .inl ⟨_, rfl⟩
    next cell here =>
      split
      next => exact .inl ⟨_, rfl⟩
      next =>
        -- Bringing in what the editor holds moves no cell, so the index still means the cell it meant.
        have place : (ids session.cells.cells)[index]? = some cell.id := by
          rw [← places, ids, List.getElem?_map]
          exact congrArg (Option.map Cell.id) here
        exact .inr ⟨_, cell, here, place, passage.nextTicket, rfl⟩

theorem Books.ticketed (books : session.Books) (index : Nat) (id : Text) :
    (session.ticketed index id).Books := by
  have others : ∀ entry ∈ session.executions.filter fun entry => entry.2 ≠ id,
      entry.1 < session.nextTicket ∧ entry.2 ≠ id := fun entry member =>
    ⟨books.issued entry (List.mem_of_mem_filter member), by simpa using List.of_mem_filter member⟩
  refine ⟨books.coherent.modifyAt index fun _ => rfl, ?_, ?_, ?_⟩
  · exact (books.distinct.filter _).set _ id
  · intro entry member
    rcases Table.mem_set member with old | rfl
    · exact Nat.lt_succ_of_lt (others entry old).1
    · exact Nat.lt_succ_self _
  · -- The ticket is new, so its entry stands at the end of the table.
    have last (table : Table Nat Text) (fresh : ∀ entry ∈ table, entry.1 < session.nextTicket) :
        Table.set table session.nextTicket id = table ++ [(session.nextTicket, id)] := by
      induction table with
      | nil => rfl
      | cons entry rest ih =>
        obtain ⟨here, fresh⟩ := List.forall_mem_cons.mp fresh
        rw [Table.set, if_neg (Nat.ne_of_lt here), ih fresh, List.cons_append]
    change ((Table.set _ _ _).map _).Nodup
    rw [last _ fun entry member => (others entry member).1, List.map_append, List.nodup_append]
    refine ⟨books.apart.sublist (List.filter_sublist.map _), List.nodup_singleton _, ?_⟩
    rintro held member _ new
    obtain ⟨entry, there, rfl⟩ := List.mem_map.mp member
    rw [List.mem_singleton.mp new]
    exact (others entry there).2

/-- Of other cells the tickets stay, and the cell is followed under the new one. -/
theorem Books.get?_ticketed (books : session.Books) (index : Nat) {id other : Text} {ticket : Nat} :
    Table.get? (session.ticketed index id).executions ticket = some other ↔
      ticket = session.nextTicket ∧ other = id ∨
        Table.get? session.executions ticket = some other ∧ other ≠ id := by
  -- The next ticket is bound to nothing yet.
  have new : Table.get? session.executions session.nextTicket ≠ some other := fun bound =>
    Nat.lt_irrefl _ (books.issued _ (Table.mem_of_get? bound))
  simp only [Session.ticketed, Table.get?_set]
  split
  next same =>
    subst same
    simp [new, eq_comm]
  next different =>
    have kept := (books.distinct.filter fun entry => entry.2 ≠ id)
    constructor
    · intro found
      have member := List.mem_filter.mp (Table.mem_of_get? found)
      exact .inr ⟨books.distinct.get? member.1, by simpa using member.2⟩
    · rintro (⟨same, -⟩ | ⟨found, apart⟩)
      · exact absurd same.symm different
      · exact kept.get? (List.mem_filter.mpr ⟨Table.mem_of_get? found, by simpa using apart⟩)

/-! ## Events -/

section Events

variable {event : Event} {ticket : Nat} {id : Text}

theorem find?_isSome (list : CellList) (id : Text) : (list.find? id).isSome ↔ id ∈ ids list.cells := by
  simp [CellList.find?, ids]

theorem applyEvent_unbound (carried : event.ticket = some ticket)
    (unbound : Table.get? session.executions ticket = none) :
    session.applyEvent event = (.discarded, session) := by
  simp only [applyEvent, carried, unbound]

/-- An event that finds its cell gone ends the execution. -/
theorem applyEvent_missed (carried : event.ticket = some ticket)
    (bound : Table.get? session.executions ticket = some id) (gone : id ∉ ids session.cells.cells) :
    session.applyEvent event =
      (.discarded, { session with executions := Table.erase session.executions ticket }) := by
  have none : session.cells.find? id = none := by
    rw [← Option.not_isSome_iff_eq_none, find?_isSome]
    exact gone
  simp only [applyEvent, carried, bound, none]

theorem applyEvent_live (carried : event.ticket = some ticket)
    (bound : Table.get? session.executions ticket = some id) (live : id ∈ ids session.cells.cells) :
    session.applyEvent event = session.applyTo ticket id event := by
  obtain ⟨cell, found⟩ := Option.isSome_iff_exists.mp ((find?_isSome _ id).mpr live)
  simp only [applyEvent, carried, bound, found]

/-- An event about a live cell changes that cell, which keeps its identity, or it is a summary and ends
the execution. -/
theorem applyTo_cases (session : Session) (ticket : Nat) (id : Text) (event : Event) :
    ((∀ carried summary, event ≠ .namespaceSummary carried summary) ∧
      ∃ change : Cell → Cell, (∀ cell, (change cell).id = cell.id) ∧
        (session.applyTo ticket id event).2 = session.withCell id change) ∨
    ∃ carried summary, event = .namespaceSummary carried summary ∧
      session.applyTo ticket id event = (.applied id, { session with
        namespaces := Table.set session.namespaces id summary
        executions := Table.erase session.executions ticket }) := by
  -- Changing a cell to itself changes nothing.
  have unchanged : session.withCell id (fun cell => cell) = session := by
    have same (index : Nat) : session.cells.cells.modify index (fun cell => cell) =
        session.cells.cells := List.modify_id ..
    unfold withCell CellList.modifyCell
    split
    · simp only [CellList.modifyAt, same]
    · rfl
  cases event with
  | namespaceSummary carried summary => exact .inr ⟨carried, summary, rfl, rfl⟩
  | status state carried =>
    refine .inl ⟨by simp, ?_⟩
    simp only [applyTo]
    split
    · exact ⟨_, by intro _; rfl, rfl⟩
    · split
      · exact ⟨_, by intro _; rfl, rfl⟩
      · exact ⟨_, by intro _; rfl, unchanged.symm⟩
  | executeRequest | executeInput | output | error =>
    exact .inl ⟨by simp, _, by intro _; rfl, rfl⟩
  | ready | kernelStarted | interrupted | restarted | shutdown | unknown =>
    exact .inl ⟨by simp, _, by intro _; rfl, unchanged.symm⟩

/-- Settling all executions changes cells only. -/
theorem settleAll_eq (session : Session) : session.settleAll = { session with
    cells := session.executions.foldl (fun list entry => list.modifyCell entry.2 settled)
      session.cells } := by
  have row (entries : Table Nat Text) (session : Session) :
      entries.foldl (fun session entry => session.withCell entry.2 settled) session = { session with
        cells := entries.foldl (fun list entry => list.modifyCell entry.2 settled)
          session.cells } := by
    induction entries generalizing session with
    | nil => rfl
    | cons entry rest ih => exact ih (session.withCell entry.2 settled)
  exact row session.executions session

/-- An event without a ticket forgets all executions, or none. -/
theorem executions_applyGeneral (session : Session) (event : Event) :
    (session.applyGeneral event).2.nextTicket = session.nextTicket ∧
      (session.applyGeneral event).2.executions =
        if event = .restarted ∨ event = .shutdown then [] else session.executions := by
  cases event <;> simp [applyGeneral, settleAll_eq]

/-- All that an event can do. -/
inductive Effect (session : Session) (event : Event) : Session → Prop
  | general : event.ticket = none → Effect session event (session.applyGeneral event).2
  /-- Its ticket is bound to no cell. -/
  | unbound {ticket : Nat} : event.ticket = some ticket →
      Table.get? session.executions ticket = none → Effect session event session
  /-- Its ticket is bound to a live cell, which is changed. -/
  | changed {ticket : Nat} {id : Text} {change : Cell → Cell} : event.ticket = some ticket →
      Table.get? session.executions ticket = some id → id ∈ ids session.cells.cells →
      (∀ carried summary, event ≠ .namespaceSummary carried summary) →
      (∀ cell, (change cell).id = cell.id) → Effect session event (session.withCell id change)
  /-- It is the summary of the namespace, and its ticket is bound to a live cell. -/
  | summarized {ticket : Nat} {id summary : Text} :
      event = .namespaceSummary (some ticket) summary →
      Table.get? session.executions ticket = some id → id ∈ ids session.cells.cells →
      (session.applyEvent event).1 = .applied id →
      Effect session event { session with
        namespaces := Table.set session.namespaces id summary
        executions := Table.erase session.executions ticket }
  /-- Its ticket is bound to a cell that is not live. -/
  | missed {ticket : Nat} {id : Text} : event.ticket = some ticket →
      Table.get? session.executions ticket = some id → id ∉ ids session.cells.cells →
      Effect session event { session with executions := Table.erase session.executions ticket }

theorem effect_applyEvent (session : Session) (event : Event) :
    Effect session event (session.applyEvent event).2 := by
  -- An event goes to the cell that its ticket is bound to, if that is live.
  cases carried : event.ticket with
  | none =>
    have general : session.applyEvent event = session.applyGeneral event := by
      simp only [applyEvent, carried]
    rw [general]
    exact .general carried
  | some ticket =>
    cases bound : Table.get? session.executions ticket with
    | none =>
      rw [applyEvent_unbound carried bound]
      exact .unbound carried bound
    | some id =>
      by_cases live : id ∈ ids session.cells.cells
      · have found := applyEvent_live carried bound live
        rcases session.applyTo_cases ticket id event with ⟨other, change, keeps, changed⟩ |
          ⟨_, summary, rfl, ended⟩
        · rw [found, changed]
          exact .changed carried bound live other keeps
        · obtain rfl : _ = some ticket := carried
          have applied := congrArg Prod.fst (found.trans ended)
          rw [found, ended]
          exact .summarized rfl bound live applied
      · rw [applyEvent_missed carried bound live]
        exact .missed carried bound live

/-- An event binds no ticket. -/
theorem executions_applyEvent (session : Session) (event : Event) :
    (session.applyEvent event).2.nextTicket = session.nextTicket ∧
      (session.applyEvent event).2.executions.Sublist session.executions := by
  have fewer {after : Session} (effect : Effect session event after) :
      after.nextTicket = session.nextTicket ∧ after.executions.Sublist session.executions := by
    cases effect with
    | general =>
      obtain ⟨nextTicket, executions⟩ := session.executions_applyGeneral event
      rw [executions]
      refine ⟨nextTicket, ?_⟩
      split
      · exact List.nil_sublist _
      · exact List.Sublist.refl _
    | unbound | changed => exact ⟨rfl, List.Sublist.refl _⟩
    | summarized | missed => exact ⟨rfl, List.filter_sublist⟩
  exact fewer (session.effect_applyEvent event)

theorem Books.applyEvent (books : session.Books) (event : Event) :
    (session.applyEvent event).2.Books := by
  obtain ⟨nextTicket, fewer⟩ := session.executions_applyEvent event
  exact books.of_sublist ((session.unshown_applyEvent event).coherent books.coherent) fewer nextTicket

/-- How an event ends a ticket. -/
theorem ends_applyEvent_iff : Deed.Ends ⟨session, .applyEvent event⟩ ticket id ↔
    event = .restarted ∨ event = .shutdown ∨ event.ticket = some ticket ∧
      ((∃ summary target, event = .namespaceSummary (some ticket) summary ∧
        (session.applyEvent event).1 = .applied target) ∨ id ∉ ids session.cells.cells) := by
  constructor
  · intro ends
    cases ends with
    | requeued issued =>
      obtain ⟨_, _, queued, -⟩ := issued
      cases queued
    | restarted same =>
      cases same
      exact .inl rfl
    | shutdown same =>
      cases same
      exact .inr (.inl rfl)
    | summarized same applied =>
      cases same
      exact .inr (.inr ⟨rfl, .inl ⟨_, _, rfl, applied⟩⟩)
    | missed same carried gone =>
      cases same
      exact .inr (.inr ⟨carried, .inr gone⟩)
  · rintro (rfl | rfl | ⟨carried, ⟨summary, target, rfl, applied⟩ | gone⟩)
    · exact .restarted rfl
    · exact .shutdown rfl
    · exact .summarized rfl applied
    · exact .missed rfl carried gone

/-- After an event the same tickets are bound as before, except for those that it ends. -/
theorem get?_applyEvent (session : Session) (event : Event) (ticket : Nat) (id : Text) :
    Table.get? (session.applyEvent event).2.executions ticket = some id ↔
      Table.get? session.executions ticket = some id ∧
        ¬Deed.Ends ⟨session, .applyEvent event⟩ ticket id := by
  rw [ends_applyEvent_iff]
  -- An event that carries a ticket is none of those that end all executions.
  have going {held : Nat} (carried : event.ticket = some held) :
      event ≠ .restarted ∧ event ≠ .shutdown := by
    constructor
    all_goals
      rintro rfl
      cases carried
  have bound {after : Session} (effect : Effect session event after) :
      Table.get? after.executions ticket = some id ↔ Table.get? session.executions ticket = some id ∧
        ¬(event = .restarted ∨ event = .shutdown ∨ event.ticket = some ticket ∧
          ((∃ summary target, event = .namespaceSummary (some ticket) summary ∧
            (session.applyEvent event).1 = .applied target) ∨ id ∉ ids session.cells.cells)) := by
    cases effect with
    | general carried =>
      rw [(session.executions_applyGeneral event).2, carried]
      split
      next ended => simp [ended]
      next others =>
        obtain ⟨restarted, shutdown⟩ := not_or.mp others
        simp [restarted, shutdown]
    | unbound carried free =>
      simp only [going carried, carried, false_or, Option.some.injEq, not_and, not_or, not_not]
      refine ⟨fun found => ⟨found, ?_⟩, And.left⟩
      rintro rfl
      cases free.symm.trans found
    | changed carried bound live other =>
      refine ⟨fun found => ⟨found, ?_⟩, And.left⟩
      simp only [going carried, carried, false_or, Option.some.injEq, not_and, not_or, not_not]
      rintro rfl
      obtain rfl := Option.some.inj (bound.symm.trans found)
      refine ⟨?_, live⟩
      rintro ⟨summary, _, same, -⟩
      exact other _ summary same
    | @summarized held _ _ same bound live applied =>
      have carried : event.ticket = some held := congrArg Event.ticket same
      simp only [going carried, carried, Table.get?_erase, false_or, Option.some.injEq]
      by_cases here : held = ticket
      · subst here
        have ended : ∃ summary target, event = .namespaceSummary (some held) summary ∧
            (session.applyEvent event).1 = .applied target := ⟨_, _, same, applied⟩
        simp only [if_true, reduceCtorEq, true_and, false_iff, not_and, not_not]
        exact fun _ => .inl ended
      · simp [here]
    | @missed held target carried bound gone =>
      simp only [going carried, carried, Table.get?_erase, false_or, Option.some.injEq]
      by_cases here : held = ticket
      · subst here
        simp only [bound, if_true, true_and, not_or, not_not]
        constructor
        · rintro ⟨⟩
        · rintro ⟨found, -, there⟩
          cases found
          exact absurd there gone
      · simp [here]
  exact bound (session.effect_applyEvent event)

end Events

/-! ## Runs -/

/-- A deed that queues a cell is refused and issues nothing, or it issues the next ticket for the cell
that stands at the index. -/
theorem issues_queue (session : Session) (index : Nat) : ∃ middle, Passage session middle ∧
    ((session.queue index).2 = middle ∧
      (∀ ticket id, ¬Deed.Issues ⟨session, .queue index⟩ ticket id) ∨
    ∃ cell, middle.cells.get? index = some cell ∧
      (session.queue index).2 = middle.ticketed index cell.id ∧
      ∀ ticket id, Deed.Issues ⟨session, .queue index⟩ ticket id ↔
        ticket = session.nextTicket ∧ id = cell.id) := by
  obtain ⟨middle, passage, ⟨fault, refused⟩ | ⟨command, cell, here, place, next, done⟩⟩ :=
    session.queue_cases index
  · refine ⟨middle, passage, .inl ⟨by rw [refused], ?_⟩⟩
    rintro ticket id ⟨_, _, ⟨⟩, same, -⟩
    rw [refused] at same
    cases same
  · refine ⟨middle, passage, .inr ⟨cell, here, by rw [done], fun ticket id => ⟨?_, ?_⟩⟩⟩
    · rintro ⟨_, _, ⟨⟩, same, rfl, there⟩
      rw [done] at same
      cases same
      exact ⟨next, Option.some.inj (there.symm.trans place)⟩
    · rintro ⟨rfl, rfl⟩
      exact ⟨index, command, rfl, by rw [done], next, place⟩

/-- Queueing ends the tickets of the cell that gets a new one. -/
theorem ends_queue_iff {index ticket : Nat} {id : Text} :
    Deed.Ends ⟨session, .queue index⟩ ticket id ↔
      ∃ other, Deed.Issues ⟨session, .queue index⟩ other id := by
  constructor
  · rintro (issued | same | same | ⟨same, -⟩ | ⟨same, -⟩)
    · exact ⟨_, issued⟩
    all_goals cases same
  · rintro ⟨other, issued⟩
    exact .requeued issued

/-- Only queueing issues tickets. -/
theorem not_issues_applyEvent (session : Session) (event : Event) (ticket : Nat) (id : Text) :
    ¬Deed.Issues ⟨session, .applyEvent event⟩ ticket id := by
  rintro ⟨_, _, queued, -⟩
  cases queued

/-- A deed that does not concern executions issues nothing and ends nothing. -/
theorem passive (session : Session) {operation : Operation}
    (apart : operation.concernsExecution = false) (ticket : Nat) (id : Text) :
    ¬Deed.Issues ⟨session, operation⟩ ticket id ∧ ¬Deed.Ends ⟨session, operation⟩ ticket id := by
  have issues (ticket : Nat) : ¬Deed.Issues ⟨session, operation⟩ ticket id := by
    rintro ⟨_, _, queued, -⟩
    cases queued
    cases apart
  refine ⟨issues ticket, fun ends => ?_⟩
  cases ends with
  | requeued issued => exact issues _ issued
  | restarted same | shutdown same | summarized same _ | missed same _ _ =>
    cases same
    cases apart

/-- A deed binds the ticket that it issues and keeps those that it does not end. -/
theorem Books.perform (books : session.Books) (operation : Operation) :
    (operation.perform session).2.Books ∧
    ∀ ticket id, Table.get? (operation.perform session).2.executions ticket = some id ↔
      Deed.Issues ⟨session, operation⟩ ticket id ∨
        Table.get? session.executions ticket = some id ∧
          ¬Deed.Ends ⟨session, operation⟩ ticket id := by
  -- What does not concern executions leaves the table as it was, so two operations are left.
  cases concerns : operation.concernsExecution with
  | false =>
    have passage := session.passage_perform concerns
    refine ⟨books.passage passage, fun ticket id => ?_⟩
    obtain ⟨issues, ends⟩ := session.passive concerns ticket id
    simp [passage.executions, issues, ends]
  | true =>
    cases operation with
    | queue index =>
      obtain ⟨middle, passage, ⟨refused, issues⟩ | ⟨cell, -, done, issues⟩⟩ :=
        session.issues_queue index
      all_goals
        have brought := books.passage passage
        change (session.queue index).2.Books ∧ ∀ ticket id,
          Table.get? (session.queue index).2.executions ticket = some id ↔ _
      · rw [refused]
        refine ⟨brought, fun ticket id => ?_⟩
        simp [ends_queue_iff, issues, passage.executions]
      · rw [done]
        refine ⟨brought.ticketed index cell.id, fun ticket id => ?_⟩
        rw [brought.get?_ticketed index, ends_queue_iff, passage.executions, passage.nextTicket]
        simp [issues]
    | applyEvent event =>
      refine ⟨books.applyEvent event, fun ticket id => ?_⟩
      rw [or_iff_right (session.not_issues_applyEvent event ticket id)]
      exact session.get?_applyEvent event ticket id
    | _ => cases concerns

/-- Tickets are issued in order. -/
theorem nextTicket_perform (session : Session) (operation : Operation) :
    session.nextTicket ≤ (operation.perform session).2.nextTicket ∧
      ∀ ticket id, Deed.Issues ⟨session, operation⟩ ticket id →
        ticket = session.nextTicket ∧ ticket < (operation.perform session).2.nextTicket := by
  -- Only queueing counts on, and only if it is not refused.
  cases concerns : operation.concernsExecution with
  | false =>
    rw [(session.passage_perform concerns).nextTicket]
    exact ⟨Nat.le_refl _, fun ticket id issued => absurd issued (session.passive concerns ticket id).1⟩
  | true =>
    cases operation with
    | queue index =>
      obtain ⟨middle, passage, ⟨refused, issues⟩ | ⟨cell, -, done, issues⟩⟩ :=
        session.issues_queue index
      all_goals
        change session.nextTicket ≤ (session.queue index).2.nextTicket ∧ ∀ ticket id, _ →
          _ ∧ ticket < (session.queue index).2.nextTicket
      · rw [refused, passage.nextTicket]
        exact ⟨Nat.le_refl _, fun ticket id issued => absurd issued (issues ticket id)⟩
      · have later : (session.queue index).2.nextTicket = session.nextTicket + 1 := by
          rw [done]
          exact congrArg (· + 1) passage.nextTicket
        rw [later]
        refine ⟨Nat.le_succ _, fun ticket id issued => ?_⟩
        obtain ⟨rfl, -⟩ := (issues ticket id).mp issued
        exact ⟨rfl, Nat.lt_succ_self _⟩
    | applyEvent event =>
      refine ⟨(session.executions_applyEvent event).1.ge, fun ticket id issued => ?_⟩
      exact absurd issued (session.not_issues_applyEvent event ticket id)
    | _ => cases concerns

variable {opened : Session} {past : List Deed}

theorem Annals.books (annals : Annals opened past session) (start : Opened settings opened) :
    session.Books := by
  induction annals with
  | opened => exact start.books
  | step _ operation ih => exact (ih.perform operation).1

/-- The table of executions binds the valid tickets to their cells, and nothing else. -/
theorem Annals.get?_executions (annals : Annals opened past session)
    (start : Opened settings opened) (ticket : Nat) (id : Text) :
    Table.get? session.executions ticket = some id ↔ Valid past ticket id := by
  induction annals with
  | opened =>
    rw [start.loaded.1]
    simp [valid_nil]
  | step annals operation ih =>
    -- The table and the validity of tickets change by the same rule.
    rw [valid_cons, ((annals.books start).perform operation).2, ih]

theorem Annals.issued (annals : Annals opened past session) :
    (∀ deed ∈ past, ∀ ticket id, deed.Issues ticket id → ticket < session.nextTicket) ∧
    past.Pairwise fun later earlier =>
      ∀ ticket id other, later.Issues ticket id → ¬earlier.Issues ticket other := by
  induction annals with
  | opened => exact ⟨List.forall_mem_nil _, .nil⟩
  | @step past session _ operation ih =>
    obtain ⟨older, apart⟩ := ih
    obtain ⟨onward, newest⟩ := session.nextTicket_perform operation
    refine ⟨List.forall_mem_cons.mpr ⟨fun ticket id issued => (newest ticket id issued).2, ?_⟩,
      List.pairwise_cons.mpr ⟨?_, apart⟩⟩
    · exact fun deed member ticket id issued =>
        Nat.lt_of_lt_of_le (older deed member ticket id issued) onward
    · -- The older tickets lie below the next one, and it is the next one that is issued.
      intro deed member ticket id other issued before
      obtain ⟨rfl, -⟩ := newest ticket id issued
      exact Nat.lt_irrefl _ (older deed member _ other before)

/-- An output with the ticket of a live cell is appended to the outputs of that cell. -/
theorem applyEvent_output {above below : List Cell} {cell : Cell} {ticket : Nat}
    (distinct : (ids session.cells.cells).Nodup)
    (cells : session.cells.cells = above ++ cell :: below)
    (bound : Table.get? session.executions ticket = some cell.id) (output : Output) :
    session.applyEvent (.output (some ticket) output) = (.applied cell.id, { session with
      cells := { session.cells with cells := above ++ withOutput output cell :: below } }) := by
  have live : cell.id ∈ ids session.cells.cells := by
    rw [cells]
    simp
  rw [applyEvent_live rfl bound live]
  simp only [applyTo, withCell, CellList.modifyCell, CellList.indexOf?_eq distinct cells,
    CellList.modifyAt, cells, modify_around]

/-- An output whose ticket is bound to no live cell is dropped. -/
theorem applyEvent_discarded {event : Event} {ticket : Nat} (carried : event.ticket = some ticket)
    (unbound : ∀ id ∈ ids session.cells.cells, Table.get? session.executions ticket ≠ some id) :
    session.applyEvent event =
      (.discarded, { session with executions := Table.erase session.executions ticket }) := by
  cases bound : Table.get? session.executions ticket with
  | none =>
    have same : Table.erase session.executions ticket = session.executions := by
      apply List.filter_eq_self.mpr
      intro entry member
      simpa [Table.get?] using List.find?_eq_none.mp (Option.map_eq_none_iff.mp bound) entry member
    rw [applyEvent_unbound carried bound, same]
  | some id => exact applyEvent_missed carried bound fun live => unbound id live bound

/-- Whatever was done since the notebook was opened, and whatever the kernel reported: an output with
a valid ticket is appended to the outputs of the cell that the ticket was issued for, wherever that
cell stands, and may tell its execution count; nothing else changes. An output whose ticket is not
valid for a live cell is dropped, and no cell changes. No two deeds issued the same ticket, and no
cell has two valid ones. -/
theorem Annals.output_follows_ticket (start : Opened settings opened)
    (annals : Annals opened past session) :
    (∀ ticket id output above cell below, Valid past ticket id → cell.id = id →
      session.cells.cells = above ++ cell :: below →
      ∃ count, session.applyEvent (.output (some ticket) output) = (.applied id, { session with
        cells := { session.cells with
          cells := above ++ { cell with
            outputs := cell.outputs ++ [output], executionCount := count } :: below } })) ∧
    (∀ ticket output, (∀ cell ∈ session.cells.cells, ¬Valid past ticket cell.id) →
      session.applyEvent (.output (some ticket) output) =
        (.discarded, { session with executions := Table.erase session.executions ticket })) ∧
    (past.Pairwise fun later earlier =>
      ∀ ticket id other, later.Issues ticket id → ¬earlier.Issues ticket other) ∧
    ∀ ticket other id, Valid past ticket id → Valid past other id → ticket = other := by
  have books := annals.books start
  refine ⟨?_, ?_, annals.issued.2, ?_⟩
  · rintro ticket _ output above cell below valid rfl cells
    have bound := (annals.get?_executions start ticket cell.id).mpr valid
    exact ⟨_, applyEvent_output books.coherent.distinct_cells cells bound output⟩
  · intro ticket output invalid
    refine applyEvent_discarded rfl fun id live bound => ?_
    obtain ⟨cell, member, rfl⟩ := List.mem_map.mp live
    exact invalid cell member ((annals.get?_executions start ticket _).mp bound)
  · intro ticket other id valid again
    -- One cell stands once among the values of the table.
    have first := Table.mem_of_get? ((annals.get?_executions start ticket id).mpr valid)
    have second := Table.mem_of_get? ((annals.get?_executions start other id).mpr again)
    have same := List.inj_on_of_nodup_map books.apart first second rfl
    exact congrArg Prod.fst same

/-- So it is with an output for a cell that was moved down after it was queued. -/
theorem output_follows_moved_cell : ∃ opened session past,
    Session.ofCells [{ id := "a", kind := .code, source := "x = 1" },
      { id := "b", kind := .markdown, source := "prose" }] {} = .ok opened ∧
    session = (Operation.perform (Operation.perform opened (.queue 0)).2 (.moveCell 0 1)).2 ∧
    Annals opened past session ∧ Valid past 0 "a" ∧ ∃ count,
    session.applyEvent (.output (some 0) ⟨"stream", []⟩) = (.applied "a", { session with
      cells := { session.cells with cells := [{ id := "b", kind := .markdown, source := "prose" },
        { id := "a", kind := .code, source := "x = 1", progress := .queued
          outputs := [⟨"stream", []⟩], executionCount := count }] } }) := by
  have start : Opened {} _ := .cells (rfl :
    Session.ofCells [{ id := "a", kind := .code, source := "x = 1" },
      { id := "b", kind := .markdown, source := "prose" }] {} = .ok _)
  have annals := (start.annals.step (.queue 0)).step (.moveCell 0 1)
  refine ⟨_, _, _, rfl, rfl, annals, (show Valid _ 0 "a" → _ from fun valid => ⟨valid, ?_⟩) ?_⟩
  · refine valid_cons.mpr (.inr ⟨valid_cons.mpr (.inl ?_), (passive _ (by rfl) 0 "a").2⟩)
    exact ⟨0, _, rfl, rfl, rfl, rfl⟩
  · exact (Annals.output_follows_ticket start annals).1 0 "a" ⟨"stream", []⟩
      [{ id := "b", kind := .markdown, source := "prose" }]
      { id := "a", kind := .code, source := "x = 1", progress := .queued } [] valid rfl
      (by decide +kernel)

end Session

end Notebook

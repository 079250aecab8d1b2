import Notebook.Proofs.Session.Tickets
/-!
# Which cells are stranded

A cell that is queued or busy stays so until an event reaches it under its newest ticket. There are two
ways to lose that ticket without becoming idle: the summary of the namespace arrives first, or the cell
is away, removed but remembered, while its execution is ended. Such a cell is stranded: no event reaches
it any more, until it is queued again. All others are settled by each event that should settle them.
-/
namespace Notebook

open CellList (ids)

/-- The event ends every execution at once. -/
def Event.settlesAll : Event → Bool
  | interrupted | restarted | shutdown => true
  | _ => false

/-- The deed ends an execution and leaves the progress of the cell as it is. -/
inductive Deed.Strands (deed : Deed) (ticket : Nat) (id : Text) : Prop
  /-- The summary that belongs to the ticket is applied. -/
  | summarized {summary target : Text} :
      deed.operation = .applyEvent (.namespaceSummary (some ticket) summary) →
      (deed.before.applyEvent (.namespaceSummary (some ticket) summary)).1 = .applied target →
      Strands deed ticket id
  /-- The cell is not live when an event with the ticket arrives, or when the kernel restarts or ends. -/
  | missed {event : Event} : deed.operation = .applyEvent event →
      event.ticket = some ticket ∨ event = .restarted ∨ event = .shutdown →
      id ∉ ids deed.before.cells.cells → Strands deed ticket id

theorem Deed.Strands.ends {deed : Deed} {ticket : Nat} {id : Text}
    (strands : deed.Strands ticket id) : deed.Ends ticket id := by
  cases strands with
  | summarized same applied => exact .summarized same applied
  | missed same cause gone =>
    rcases cause with carried | rfl | rfl
    · exact .missed same carried gone
    · exact .restarted same
    · exact .shutdown same

/-- The newest ticket of a cell, and what was done since it was issued. -/
def Newest (past : List Deed) (ticket : Nat) (id : Text) (later : List Deed) : Prop :=
  ∃ deed earlier, past = later ++ deed :: earlier ∧ deed.Issues ticket id ∧
    ∀ other ∈ later, ∀ newer, ¬other.Issues newer id

theorem Newest.cons {past later : List Deed} {ticket : Nat} {id : Text}
    (newest : Newest past ticket id later) {deed : Deed} (other : ∀ newer, ¬deed.Issues newer id) :
    Newest (deed :: past) ticket id (deed :: later) := by
  obtain ⟨issuing, earlier, rfl, issued, none⟩ := newest
  exact ⟨issuing, earlier, rfl, issued, List.forall_mem_cons.mpr ⟨other, none⟩⟩

theorem Deed.Issues.unique {deed : Deed} {ticket other : Nat} {id : Text} (issued : deed.Issues ticket id)
    (again : deed.Issues other id) : ticket = other := by
  obtain ⟨index, command, operation, done, rfl, -⟩ := issued
  obtain ⟨index, command, same, done', rfl, -⟩ := again
  cases operation.symm.trans same
  cases done.symm.trans done'
  rfl

/-- A cell has one newest ticket. -/
theorem Newest.unique {past later later' : List Deed} {ticket other : Nat} {id : Text}
    (newest : Newest past ticket id later) (again : Newest past other id later') :
    ticket = other ∧ later = later' := by
  obtain ⟨deed, earlier, rfl, issued, none⟩ := newest
  obtain ⟨deed', earlier', split, issued', none'⟩ := again
  rcases List.append_eq_append_iff.mp split with ⟨between, rfl, rest⟩ | ⟨between, rfl, rest⟩
  all_goals
    cases between with
    | nil =>
      cases rest
      exact ⟨issued.unique issued', by simp⟩
    | cons first between => _
  · cases rest
    exact absurd issued (none' _ (by simp) _)
  · cases rest
    exact absurd issued' (none _ (by simp) _)

/-- Since its newest ticket was issued the cell was stranded. -/
def Stranded (past : List Deed) (id : Text) : Prop :=
  ∃ ticket later, Newest past ticket id later ∧ ∃ other ∈ later, other.Strands ticket id

/-- A valid ticket is the newest of its cell. -/
theorem Valid.newest {past : List Deed} {ticket : Nat} {id : Text} (valid : Valid past ticket id) :
    ∃ later, Newest past ticket id later ∧ ∀ other ∈ later, ¬other.Ends ticket id := by
  obtain ⟨later, deed, earlier, split, issued, kept⟩ := valid
  exact ⟨later, ⟨deed, earlier, split, issued, fun other member newer again =>
    kept other member (.requeued again)⟩, kept⟩

/-- A cell that was stranded has no valid ticket. -/
theorem Stranded.not_valid {past : List Deed} {id : Text} (stranded : Stranded past id) {ticket : Nat} :
    ¬Valid past ticket id := by
  intro valid
  obtain ⟨held, later, newest, other, member, strands⟩ := stranded
  obtain ⟨later, again, kept⟩ := valid.newest
  obtain ⟨rfl, rfl⟩ := newest.unique again
  exact kept other member strands.ends

/-- Of a cell that is executed the newest ticket is known: it is valid, or it was lost since. -/
def Accounted (past : List Deed) (id : Text) : Prop :=
  ∃ ticket later, Newest past ticket id later ∧
    (Valid past ticket id ∨ ∃ other ∈ later, other.Strands ticket id)

theorem Valid.accounted {past : List Deed} {ticket : Nat} {id : Text} (valid : Valid past ticket id) :
    Accounted past id := by
  obtain ⟨later, newest, -⟩ := valid.newest
  exact ⟨ticket, later, newest, .inl valid⟩

theorem Accounted.cons {past : List Deed} {id : Text} (accounted : Accounted past id) {deed : Deed}
    (other : ∀ newer, ¬deed.Issues newer id)
    (lost : ∀ ticket, Valid past ticket id → deed.Ends ticket id → deed.Strands ticket id) :
    Accounted (deed :: past) id := by
  obtain ⟨ticket, later, newest, valid | ⟨stranding, member, strands⟩⟩ := accounted
  · refine ⟨ticket, deed :: later, newest.cons other, ?_⟩
    by_cases ends : deed.Ends ticket id
    · exact .inr ⟨deed, List.mem_cons_self, lost ticket valid ends⟩
    · exact .inl (valid_cons.mpr (.inr ⟨valid, ends⟩))
  · exact ⟨ticket, deed :: later, newest.cons other,
      .inr ⟨stranding, List.mem_cons_of_mem _ member, strands⟩⟩

/-- A deed that neither issues a ticket for a cell nor ends one of its tickets leaves it accounted for. -/
theorem Accounted.passive {past : List Deed} {id : Text} (accounted : Accounted past id) {deed : Deed}
    (issues : ∀ newer, ¬deed.Issues newer id) (ends : ∀ ticket, ¬deed.Ends ticket id) :
    Accounted (deed :: past) id :=
  accounted.cons issues fun ticket _ ended => absurd ended (ends ticket)

/-- An event that ends a ticket strands the cell, or it settles it. -/
theorem Deed.Ends.strands {session : Session} {event : Event} {ticket : Nat} {id : Text}
    (ends : Deed.Ends ⟨session, .applyEvent event⟩ ticket id) :
    Deed.Strands ⟨session, .applyEvent event⟩ ticket id ∨
      id ∈ ids session.cells.cells ∧ event.settlesAll = true := by
  have all (stops : event = .restarted ∨ event = .shutdown) :
      Deed.Strands ⟨session, .applyEvent event⟩ ticket id ∨
        id ∈ ids session.cells.cells ∧ event.settlesAll = true := by
    by_cases live : id ∈ ids session.cells.cells
    · refine .inr ⟨live, ?_⟩
      rcases stops with rfl | rfl
      all_goals rfl
    · exact .inl (.missed rfl (.inr stops) live)
  cases ends with
  | requeued issued => exact absurd issued (session.not_issues_applyEvent event _ _)
  | restarted same =>
    cases same
    exact all (.inl rfl)
  | shutdown same =>
    cases same
    exact all (.inr rfl)
  | summarized same applied =>
    cases same
    exact .inl (.summarized rfl applied)
  | missed same carried gone =>
    cases same
    exact .inl (.missed rfl (.inl carried) gone)

namespace Session

variable {session : Session}

/-! ## What events make of the cells -/

/-- Of the cells whose identities stand in a table, none is being executed afterwards. -/
theorem foldl_settled {list : CellList} (distinct : (ids list.cells).Nodup)
    (entries : Table Nat Text) :
    entries.foldl (fun list entry => list.modifyCell entry.2 settled) list = { list with
      cells := list.cells.map fun cell =>
        if cell.id ∈ entries.map (·.2) then settled cell else cell } := by
  induction entries generalizing list with
  | nil => simp
  | cons entry rest ih =>
    have same : ids (list.modifyCell entry.2 settled).cells = ids list.cells := by
      rw [CellList.modifyCell_eq distinct, ids, ids, List.map_map]
      refine List.map_congr_left fun cell _ => ?_
      simp only [Function.comp_apply]
      split <;> rfl
    rw [List.foldl_cons, ih (same ▸ distinct), CellList.modifyCell_eq distinct]
    simp only [List.map_map, List.map_cons, List.mem_cons]
    congr 1
    refine List.map_congr_left fun cell _ => ?_
    simp only [Function.comp_apply]
    by_cases here : cell.id = entry.2
    · have either : cell.id = entry.2 ∨ cell.id ∈ rest.map (·.2) := .inl here
      rw [if_pos here, if_pos either]
      split <;> rfl
    · rw [if_neg here]
      simp only [here, false_or]

/-- Somebody follows the execution of the cell. -/
def Followed (session : Session) (id : Text) : Prop :=
  ∃ ticket, Table.get? session.executions ticket = some id

theorem Books.followed_iff (books : session.Books) (id : Text) :
    session.Followed id ↔ id ∈ session.executions.map (·.2) := by
  constructor
  · rintro ⟨ticket, bound⟩
    exact List.mem_map.mpr ⟨_, Table.mem_of_get? bound, rfl⟩
  · intro member
    obtain ⟨entry, there, rfl⟩ := List.mem_map.mp member
    exact ⟨entry.1, books.distinct.get? there⟩

/-- An event changes live cells only, and of these only such as are followed. Those that are executed
afterwards were executed before or are followed still. -/
structure Reaches (before : Session) (event : Event) (after : Session) (change : Cell → Cell) :
    Prop where
  cells : after.cells = { before.cells with cells := before.cells.cells.map change }
  id : ∀ cell, (change cell).id = cell.id
  unfollowed : ∀ cell, ¬before.Followed cell.id → change cell = cell
  settles : event.settlesAll = true → ∀ cell, before.Followed cell.id → change cell = settled cell
  cause : ∀ cell, (change cell).progress = cell.progress ∨ (change cell).progress = .idle ∨
    after.Followed cell.id

variable {event : Event} {after : Session}

theorem reaches_of_same (particular : event.settlesAll = false) (same : after.cells = session.cells) :
    ∃ change, Reaches session event after change :=
  ⟨fun cell => cell, by rw [same, List.map_id'], fun _ => rfl, fun _ _ => rfl,
    by simp [particular], fun _ => .inl rfl⟩

theorem Books.reaches_settled (books : session.Books) (cells : after.cells = session.settleAll.cells) :
    ∃ change, Reaches session event after change := by
  refine ⟨fun cell => if cell.id ∈ session.executions.map (·.2) then settled cell else cell,
    ?_, fun cell => ?_, fun cell lost => ?_, fun _ cell followed => ?_, fun cell => ?_⟩
  · rw [cells, settleAll_eq]
    exact foldl_settled books.coherent.distinct_cells session.executions
  · split <;> rfl
  · rw [books.followed_iff] at lost
    exact if_neg lost
  · exact if_pos ((books.followed_iff _).mp followed)
  · split
    · exact .inr (.inl rfl)
    · exact .inl rfl

theorem Books.reaches_applyGeneral (books : session.Books) (event : Event) :
    ∃ change, Reaches session event (session.applyGeneral event).2 change := by
  cases event with
  | interrupted | restarted | shutdown => exact books.reaches_settled rfl
  | _ => exact reaches_of_same rfl rfl

theorem Books.reaches_applyEvent (books : session.Books) (event : Event) :
    ∃ change, Reaches session event (session.applyEvent event).2 change := by
  have particular {ticket : Nat} (carried : event.ticket = some ticket) :
      event.settlesAll = false := by
    cases event with
    | interrupted | restarted | shutdown => cases carried
    | _ => rfl
  have reached {after : Session} (effect : Effect session event after) :
      ∃ change, Reaches session event after change := by
    cases effect with
    | general => exact books.reaches_applyGeneral event
    | unbound carried | missed carried => exact reaches_of_same (particular carried) rfl
    | summarized same => exact reaches_of_same (particular (congrArg Event.ticket same)) rfl
    | @changed ticket id change carried bound _ _ keeps =>
      -- One cell is changed, and its execution is followed before and after.
      refine ⟨fun cell => if cell.id = id then change cell else cell,
        CellList.modifyCell_eq books.coherent.distinct_cells id change, fun cell => ?_,
        fun cell lost => if_neg ?_, by simp [particular carried], fun cell => ?_⟩
      · split
        · exact keeps cell
        · rfl
      · rintro rfl
        exact lost ⟨ticket, bound⟩
      · by_cases here : cell.id = id
        · exact .inr (.inr ⟨ticket, here ▸ bound⟩)
        · simp [here]
  exact reached (session.effect_applyEvent event)

/-- The kernel is idle again: the execution of the ticket is over. -/
theorem Books.applyEvent_idle (books : session.Books) {ticket : Nat} {cell : Cell}
    (live : cell ∈ session.cells.cells) (bound : Table.get? session.executions ticket = some cell.id) :
    settled cell ∈ (session.applyEvent (.status "idle" (some ticket))).2.cells.cells := by
  rw [applyEvent_live rfl bound (List.mem_map_of_mem live)]
  have changed : (session.applyTo ticket cell.id (.status "idle" (some ticket))).2 =
      session.withCell cell.id settled := by
    simp only [applyTo]
    rw [if_neg (by decide)]
    rfl
  rw [changed, withCell, CellList.modifyCell_eq books.coherent.distinct_cells]
  exact List.mem_map.mpr ⟨cell, live, if_pos rfl⟩

/-! ## Runs -/

variable {settings : Settings} {opened : Session} {past : List Deed}

/-- A cell that was carried over from a session in which all that are executed are accounted for. -/
theorem accounted_carried (accounted : ∀ cell ∈ session.cells.held, cell.progress ≠ .idle →
      Accounted past cell.id) {cell : Cell} (carried : session.cells.Carried cell)
    (running : cell.progress ≠ .idle) : Accounted past cell.id := by
  rcases carried with idle | ⟨old, member, id, progress⟩
  · exact absurd idle running
  · exact id ▸ accounted old member (progress ▸ running)

/-- What queueing makes of the cells that are held. -/
theorem held_ticketed {index : Nat} {queued cell : Cell} (here : session.cells.get? index = some queued)
    (member : cell ∈ (session.ticketed index queued.id).cells.held) :
    cell.id = queued.id ∨ cell ∈ session.cells.held := by
  rcases CellList.mem_held.mp member with live | remembered
  · obtain ⟨k, bound, rfl⟩ := List.mem_iff_getElem.mp live
    simp only [ticketed, CellList.modifyAt, List.length_modify] at bound
    simp only [ticketed, CellList.modifyAt, List.getElem_modify]
    split
    next same =>
      subst same
      left
      have there : session.cells.cells[index] = queued :=
        Option.some.inj ((List.getElem?_eq_getElem bound).symm.trans here)
      rw [there]
      rfl
    next => exact .inr (CellList.mem_held.mpr (.inl (List.getElem_mem bound)))
  · exact .inr (CellList.mem_held.mpr (.inr remembered))

theorem Opened.removed (start : Opened settings opened) : opened.cells.removed = [] := by
  obtain ⟨-, -, cells, loaded⟩ := start.loaded
  rw [loaded]
  exact CellList.removed_ofCells cells

theorem Annals.accounted (annals : Annals opened past session) (start : Opened settings opened)
    (idle : ∀ cell ∈ opened.cells.cells, cell.progress = .idle) :
    ∀ cell ∈ session.cells.held, cell.progress ≠ .idle → Accounted past cell.id := by
  induction annals with
  | opened =>
    intro cell member running
    rcases CellList.mem_held.mp member with live | remembered
    · exact absurd (idle cell live) running
    · rw [start.removed] at remembered
      cases remembered
  | @step past session annals operation ih =>
    have books := annals.books start
    intro cell member running
    cases concerns : operation.concernsExecution with
    | false =>
      have carried := (session.passage_perform concerns).cells.carried cell member
      exact (accounted_carried ih carried running).passive
        (fun newer => (session.passive concerns newer _).1)
        fun ticket => (session.passive concerns ticket _).2
    | true =>
      cases operation with
      | queue index =>
        obtain ⟨middle, passage, ⟨refused, issues⟩ | ⟨queued, here, done, issues⟩⟩ :=
          session.issues_queue index
        · have carried := passage.cells.carried cell (refused ▸ member)
          refine (accounted_carried ih carried running).passive (fun newer => issues newer _) ?_
          simp [ends_queue_iff, issues]
        · have member : cell ∈ (middle.ticketed index queued.id).cells.held := done ▸ member
          by_cases same : cell.id = queued.id
          · have issued := (issues session.nextTicket cell.id).mpr ⟨rfl, same⟩
            exact (valid_cons.mpr (.inl issued)).accounted
          · have carried := passage.cells.carried cell
              ((held_ticketed here member).resolve_left same)
            refine (accounted_carried ih carried running).passive (fun newer issued => ?_) ?_
            · exact same ((issues newer _).mp issued).2
            · simp [ends_queue_iff, issues, same]
      | applyEvent event =>
        obtain ⟨change, reaches⟩ := books.reaches_applyEvent event
        have issues := session.not_issues_applyEvent event
        have member : cell ∈ (session.applyEvent event).2.cells.held := member
        rw [reaches.cells, CellList.mem_held] at member
        rcases member with live | remembered
        · obtain ⟨old, here, rfl⟩ := List.mem_map.mp live
          rw [reaches.id]
          rcases reaches.cause old with same | still | ⟨ticket, bound⟩
          · refine (ih old (CellList.mem_held.mpr (.inl here)) (same ▸ running)).cons
              (fun newer => issues newer _) fun ticket valid ends => ?_
            refine ends.strands.resolve_right fun ⟨_, all⟩ => running ?_
            -- A valid ticket is followed, so an event that ends all executions settles the cell.
            have followed := (annals.get?_executions start ticket old.id).mpr valid
            rw [reaches.settles all old ⟨ticket, followed⟩]
            rfl
          · exact absurd still running
          · exact (((annals.step (.applyEvent event)).get?_executions start ticket old.id).mp bound).accounted
        · refine (ih cell (CellList.mem_held.mpr (.inr remembered)) running).cons
            (fun newer => issues newer _) fun ticket valid ends => ?_
          refine ends.strands.resolve_right fun ⟨live, _⟩ => ?_
          obtain ⟨-, -, apart⟩ := List.nodup_append.mp books.coherent.distinct
          exact apart _ live _ (List.mem_map_of_mem remembered) rfl
      | _ => cases concerns

/-- Whatever was done since a notebook of idle cells was opened, and whatever the kernel reported: of a
live cell that is queued or busy the newest ticket is known, and it is valid exactly if the cell was
not stranded since. Then the report that the kernel is idle again makes the cell idle, and so does each
event that ends all executions. A cell that was stranded is not changed by any event. So after an event
that ends all executions the stranded cells are the only ones that are still queued or busy. -/
theorem Annals.settled_unless_stranded (start : Opened settings opened)
    (idle : ∀ cell ∈ opened.cells.cells, cell.progress = .idle)
    (annals : Annals opened past session) :
    (∀ cell ∈ session.cells.cells, cell.progress ≠ .idle →
      ∃ ticket later, Newest past ticket cell.id later ∧
        (Valid past ticket cell.id ↔ ¬Stranded past cell.id) ∧
        (¬Stranded past cell.id →
          settled cell ∈ (session.applyEvent (.status "idle" (some ticket))).2.cells.cells ∧
          ∀ event, event.settlesAll = true →
            settled cell ∈ (session.applyEvent event).2.cells.cells) ∧
        (Stranded past cell.id → ∀ event, cell ∈ (session.applyEvent event).2.cells.cells)) ∧
    ∀ event, event.settlesAll = true → ∀ cell, cell.progress ≠ .idle →
      (cell ∈ (session.applyEvent event).2.cells.cells ↔
        cell ∈ session.cells.cells ∧ Stranded past cell.id) := by
  have books := annals.books start
  have followed (ticket : Nat) (id : Text) := annals.get?_executions start ticket id
  -- A stranded cell has no valid ticket, so no event reaches it.
  have stays {cell : Cell} (live : cell ∈ session.cells.cells) (stranded : Stranded past cell.id)
      (event : Event) : cell ∈ (session.applyEvent event).2.cells.cells := by
    obtain ⟨change, reaches⟩ := books.reaches_applyEvent event
    have same : change cell = cell := reaches.unfollowed cell fun ⟨ticket, bound⟩ =>
      stranded.not_valid ((followed ticket _).mp bound)
    rw [reaches.cells]
    exact List.mem_map.mpr ⟨cell, live, same⟩
  have known {cell : Cell} (live : cell ∈ session.cells.cells) (running : cell.progress ≠ .idle) :
      Accounted past cell.id :=
    annals.accounted start idle cell (CellList.mem_held.mpr (.inl live)) running
  constructor
  · intro cell live running
    obtain ⟨ticket, later, newest, state⟩ := known live running
    have valid_iff : Valid past ticket cell.id ↔ ¬Stranded past cell.id := by
      refine ⟨fun valid stranded => stranded.not_valid valid, fun fine => ?_⟩
      exact state.resolve_right fun lost => fine ⟨ticket, later, newest, lost⟩
    refine ⟨ticket, later, newest, valid_iff, fun fine => ?_, stays live⟩
    have bound := (followed ticket cell.id).mpr (valid_iff.mpr fine)
    refine ⟨books.applyEvent_idle live bound, fun event all => ?_⟩
    obtain ⟨change, reaches⟩ := books.reaches_applyEvent event
    rw [reaches.cells]
    exact List.mem_map.mpr ⟨cell, live, reaches.settles all cell ⟨ticket, bound⟩⟩
  · intro event all cell running
    refine ⟨fun after => ?_, fun ⟨live, stranded⟩ => stays live stranded event⟩
    obtain ⟨change, reaches⟩ := books.reaches_applyEvent event
    rw [reaches.cells] at after
    obtain ⟨old, live, rfl⟩ := List.mem_map.mp after
    -- A cell that was followed would have been settled.
    have lost : ¬session.Followed old.id := fun found => by
      rw [reaches.settles all old found] at running
      exact running rfl
    rw [reaches.unfollowed old lost] at running ⊢
    obtain ⟨ticket, later, newest, valid | strands⟩ := known live running
    · exact absurd ⟨ticket, (followed ticket old.id).mpr valid⟩ lost
    · exact ⟨live, ticket, later, newest, strands⟩

/-- So a cell whose summary came before the kernel was idle stays queued when the kernel restarts. -/
theorem stranded_by_summary : ∃ opened session past,
    Session.ofCells [{ id := "a", kind := .code, source := "x = 1" }] {} = .ok opened ∧
    session = (Operation.perform (Operation.perform opened (.queue 0)).2
      (.applyEvent (.namespaceSummary (some 0) "int"))).2 ∧
    Annals opened past session ∧ Stranded past "a" ∧
    { id := "a", kind := .code, source := "x = 1", progress := .queued } ∈
      (session.applyEvent .restarted).2.cells.cells := by
  have start : Opened {} _ := .cells (rfl :
    Session.ofCells [{ id := "a", kind := .code, source := "x = 1" }] {} = .ok _)
  have annals := (start.annals.step (.queue 0)).step (.applyEvent (.namespaceSummary (some 0) "int"))
  have settles := annals.settled_unless_stranded start (by decide +kernel)
  refine ⟨_, _, _, rfl, rfl, annals, (show Stranded _ "a" → _ from fun stranded => ⟨stranded, ?_⟩) ?_⟩
  · refine ⟨0, [_], ⟨_, [], rfl, ⟨0, _, rfl, rfl, rfl, rfl⟩, ?_⟩, _, List.mem_singleton_self _,
      .summarized rfl rfl⟩
    exact List.forall_mem_singleton.mpr fun newer => not_issues_applyEvent _ _ newer "a"
  · exact (settles.2 .restarted rfl _ (by decide)).mpr ⟨by decide +kernel, stranded⟩

end Session

end Notebook

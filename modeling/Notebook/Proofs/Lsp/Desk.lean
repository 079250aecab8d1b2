import Notebook.Lsp.Relay.Notice
import Notebook.Proofs.Lsp.Registration
/-!
# The relay at work

Notebooks are opened, changed and closed, requests go out and answers come in, in any order. A ledger
is kept of the requests that were registered, with the relay and the notebooks as each one found them.
So it can be said of an answer what became of a notebook since its request was registered.
-/
namespace Notebook.Lsp

open Workspace

/-- A request was registered, with the relay and the notebooks as they were then. -/
structure Registration where
  number : Nat
  relay : Relay
  workspace : Workspace

/-- The relay, the open notebooks, and the requests that were registered, the last one first. -/
structure Desk where
  relay : Relay
  workspace : Workspace
  ledger : List Registration := []

/-- What happens at the desk, named like the functions that do it. -/
inductive Dealing where
  | operate (notebook : NotebookId) (operation : Operation)
  | openEditor (notebook : NotebookId) (index : Nat)
  | closeEditor (notebook : NotebookId)
  | insert (path : Text) (session : Session)
  | openText (path text : Text) (settings : Settings)
  | close (notebook : NotebookId)
  | didOpen (notebook : NotebookId)
  | didClose (notebook : NotebookId)
  | flush (notebook : NotebookId)
  | request (surface : SurfaceId) (method : Text) (params : Json)
  | requestFlushed (surface : SurfaceId) (method : Text) (params : Json)
  | answer (message : Json)
  | notice (method : Text) (params : Json)
  | drainDiagnostics
  | refreshDiagnostics (notebook : NotebookId)

/-- A notebook that is taken in was opened and led on by operations. -/
def Dealing.Admitted : Dealing → Prop
  | insert _ session => ∃ settings, session.Reachable settings
  | _ => True

/-- The relay itself does this, and nobody opens, changes or closes a notebook. -/
def Dealing.OfRelay : Dealing → Prop
  | operate .. | openEditor .. | closeEditor .. | insert .. | openText .. | close .. => False
  | _ => True

/-- What is done to the notebooks, past the relay. -/
def Dealing.ofAct : Act → Dealing
  | .openText path text settings => .openText path text settings
  | .insert path session => .insert path session
  | .close notebook => .close notebook
  | .openEditor notebook index => .openEditor notebook index
  | .closeEditor notebook => .closeEditor notebook
  | .operate notebook operation => .operate notebook operation

theorem Dealing.ofAct_or_ofRelay (dealing : Dealing) :
    (∃ act, dealing = .ofAct act) ∨ dealing.OfRelay := by
  cases dealing with
  | operate notebook operation => exact .inl ⟨.operate notebook operation, rfl⟩
  | openEditor notebook index => exact .inl ⟨.openEditor notebook index, rfl⟩
  | closeEditor notebook => exact .inl ⟨.closeEditor notebook, rfl⟩
  | insert path session => exact .inl ⟨.insert path session, rfl⟩
  | openText path text settings => exact .inl ⟨.openText path text settings, rfl⟩
  | close notebook => exact .inl ⟨.close notebook, rfl⟩
  | _ => exact .inr trivial

theorem Dealing.admitted_ofAct {act : Act} : (ofAct act).Admitted ↔ act.Admitted := by
  cases act <;> exact Iff.rfl

namespace Desk

/-- Go on with a relay and a workspace, and enter the request that was registered, if one was. -/
def noted (desk : Desk) (asked : Option Request) (relay : Relay) (workspace : Workspace) : Desk where
  relay
  workspace
  ledger := (asked.map fun request => ⟨request.id, relay, workspace⟩).toList ++ desk.ledger

def perform (desk : Desk) : Dealing → Desk
  | .operate notebook operation => match desk.workspace.session? notebook with
    | none => desk
    | some session => { desk with
        workspace := desk.workspace.setSession notebook (operation.perform session).2 }
  | .openEditor notebook index =>
    { desk with workspace := (desk.workspace.openEditor notebook index).2 }
  | .closeEditor notebook => { desk with workspace := (desk.workspace.closeEditor notebook).2 }
  | .insert path session => { desk with workspace := (desk.workspace.insert path session).2 }
  | .openText path text settings =>
    { desk with workspace := (desk.workspace.openText path text settings).2 }
  | .close notebook => { desk with workspace := (desk.workspace.close notebook).2 }
  | .didOpen notebook =>
    let (_, relay, workspace) := desk.relay.didOpen desk.workspace notebook
    { desk with relay, workspace }
  | .didClose notebook =>
    let (_, relay, workspace) := desk.relay.didClose desk.workspace notebook
    { desk with relay, workspace }
  | .flush notebook =>
    let (_, relay, workspace) := desk.relay.flush desk.workspace notebook
    { desk with relay, workspace }
  | .request surface method params =>
    let (asked, relay) := desk.relay.request desk.workspace surface method params
    desk.noted (asked.toOption.bind id) relay desk.workspace
  | .requestFlushed surface method params =>
    let (asked, relay, workspace) :=
      desk.relay.requestFlushed desk.workspace surface method params
    desk.noted (asked.toOption.bind (·.2)) relay workspace
  | .answer message =>
    let (outcome, relay, workspace) := desk.relay.answer desk.workspace message
    desk.noted (Relay.followUp? outcome) relay workspace
  | .notice method params => { desk with relay := (desk.relay.notice method params).2 }
  | .drainDiagnostics => { desk with relay := (desk.relay.drainDiagnostics desk.workspace).2 }
  | .refreshDiagnostics notebook =>
    { desk with relay := (desk.relay.refreshDiagnostics notebook).2 }

/-- What is done to the notebooks leaves the relay alone. -/
theorem perform_ofAct (desk : Desk) (act : Act) :
    desk.perform (.ofAct act) = { desk with workspace := act.perform desk.workspace } := by
  cases act with
  | operate notebook operation =>
    simp only [Dealing.ofAct, perform, Act.perform]
    cases desk.workspace.session? notebook <;> rfl
  | _ => rfl

/-- Things happened in any order, at first at an empty desk. -/
inductive Run : Desk → Prop
  | start (settings : RelaySettings) : Run { relay := { settings }, workspace := {} }
  | step {desk : Desk} (dealing : Dealing) : Run desk → dealing.Admitted → Run (desk.perform dealing)

/-! ## Every request that waits is in the ledger -/

/-- The ledger tells of every request that waits what it found. -/
structure Accounted (desk : Desk) : Prop where
  grown : desk.workspace.Grown
  numbered : desk.workspace.Numbered
  distinct : Table.Distinct desk.relay.pending
  below : ∀ registration ∈ desk.ledger, registration.number < desk.relay.next
  once : (desk.ledger.map (·.number)).Nodup
  history : ∀ registration ∈ desk.ledger, registration.workspace.Grown ∧
    registration.workspace.Numbered ∧ Continues registration.workspace desk.workspace
  pending : ∀ number pending, Table.get? desk.relay.pending number = some pending →
    ∃ registration ∈ desk.ledger, registration.number = number ∧ ∃ document session,
      pending.Recalls registration.relay registration.workspace document session

variable {desk : Desk}

theorem accounted_start (settings : RelaySettings) :
    Accounted { relay := { settings }, workspace := {} } := by
  refine ⟨fun id session opened => ?_, ⟨fun id entry opened => ?_, fun surface found live => ?_, ?_⟩,
    List.nodup_nil, by simp, List.nodup_nil, by simp, fun number pending waits => ?_⟩
  · cases opened
  · cases opened
  · cases live
  · exact List.nodup_nil
  · cases waits

/-- Whatever leads the notebooks on and enters what it registers keeps the ledger. -/
theorem Accounted.noted (accounted : desk.Accounted) {asked : Option Request} {relay : Relay}
    {workspace : Workspace} (continues : Continues desk.workspace workspace)
    (handed : desk.relay.Handed asked relay workspace) :
    (desk.noted asked relay workspace).Accounted := by
  have grown := continues.grown accounted.grown
  have numbered := continues.numbered accounted.numbered
  have history : ∀ registration ∈ desk.ledger, registration.workspace.Grown ∧
      registration.workspace.Numbered ∧ Continues registration.workspace workspace := by
    intro registration member
    obtain ⟨grown, numbered, before⟩ := accounted.history registration member
    exact ⟨grown, numbered, before.trans continues⟩
  have pending := handed.pending accounted.distinct
  cases asked with
  | none =>
    have next : relay.next = desk.relay.next := handed.next
    refine ⟨grown, numbered, handed.distinct accounted.distinct, ?_, accounted.once, history, ?_⟩
    · intro registration member
      change _ < relay.next
      rw [next]
      exact accounted.below registration member
    · intro number waiting waits
      rcases pending number waiting waits with old | ⟨-, none, -⟩
      · exact accounted.pending number waiting old
      · cases none
  | some request =>
    have next : relay.next = desk.relay.next + 1 := handed.next
    have number : request.id = desk.relay.next := handed.number request rfl
    refine ⟨grown, numbered, handed.distinct accounted.distinct, ?_, ?_, ?_, ?_⟩
    · intro registration member
      change registration.number < relay.next
      rcases List.mem_cons.mp member with rfl | old
      · change request.id < relay.next
        omega
      · have before := accounted.below registration old
        omega
    · -- The number is the next one, and those before it are below.
      refine List.nodup_cons.mpr ⟨fun member => ?_, accounted.once⟩
      obtain ⟨registration, old, same⟩ := List.mem_map.mp member
      have before := accounted.below registration old
      change registration.number = request.id at same
      omega
    · exact List.forall_mem_cons.mpr ⟨⟨grown, numbered, .refl workspace⟩, history⟩
    · intro place waiting waits
      rcases pending place waiting waits with old | ⟨here, -, recalled⟩
      · obtain ⟨registration, member, rest⟩ := accounted.pending place waiting old
        exact ⟨registration, List.mem_cons_of_mem _ member, rest⟩
      · exact ⟨_, List.mem_cons_self, number.trans here.symm, recalled⟩

/-- Whatever happens leads the notebooks on, and registers one request at most. -/
theorem perform_eq_noted (desk : Desk) {dealing : Dealing} (admitted : dealing.Admitted) :
    ∃ asked relay workspace, desk.perform dealing = desk.noted asked relay workspace ∧
      Continues desk.workspace workspace ∧ desk.relay.Handed asked relay workspace := by
  -- Where no request is registered, nothing is entered.
  have aside {relay : Relay} (next : relay.next = desk.relay.next)
      (pending : relay.pending = desk.relay.pending) :
      ∃ asked after workspace, { desk with relay } = desk.noted asked after workspace ∧
        Continues desk.workspace workspace ∧ desk.relay.Handed asked after workspace :=
    ⟨none, relay, desk.workspace, rfl, .refl _, .of_same next pending⟩
  rcases dealing.ofAct_or_ofRelay with ⟨act, rfl⟩ | own
  · rw [perform_ofAct]
    exact ⟨none, desk.relay, _, rfl, continues_perform _ (Dealing.admitted_ofAct.mp admitted),
      .of_same rfl rfl⟩
  cases dealing with
  | operate | openEditor | closeEditor | insert | openText | close => exact own.elim
  | didOpen notebook =>
    exact ⟨none, _, _, rfl, (desk.relay.ledOn_didOpen _ notebook).continues,
      desk.relay.handed_didOpen _ notebook⟩
  | didClose notebook =>
    exact ⟨none, _, _, rfl, (desk.relay.ledOn_didClose _ notebook).continues,
      desk.relay.handed_didClose _ notebook⟩
  | flush notebook =>
    obtain ⟨next, pending⟩ := desk.relay.pending_flush desk.workspace notebook
    exact ⟨none, _, _, rfl, (desk.relay.ledOn_flush _ notebook).continues, .of_same next pending⟩
  | request surface method params =>
    exact ⟨_, _, _, rfl, .refl _, desk.relay.handed_request desk.workspace surface method params⟩
  | requestFlushed surface method params =>
    exact ⟨_, _, _, rfl, (desk.relay.ledOn_requestFlushed _ surface method params).continues,
      desk.relay.handed_requestFlushed _ surface method params⟩
  | answer message =>
    exact ⟨_, _, _, rfl, (desk.relay.ledOn_answer _ message).continues,
      desk.relay.handed_answer _ message⟩
  | notice method params =>
    have kept : (desk.relay.notice method params).2.next = desk.relay.next ∧
        (desk.relay.notice method params).2.pending = desk.relay.pending := by
      unfold Relay.notice
      split
      · split <;> exact ⟨rfl, rfl⟩
      all_goals exact ⟨rfl, rfl⟩
    exact aside kept.1 kept.2
  | drainDiagnostics => exact aside rfl rfl
  | refreshDiagnostics notebook => exact aside rfl rfl

/-- The relay itself only leads notebooks on, and that in good order. -/
theorem ledOn_perform (desk : Desk) {dealing : Dealing} (own : dealing.OfRelay) :
    LedOn desk.workspace (desk.perform dealing).workspace := by
  cases dealing with
  | operate | openEditor | closeEditor | insert | openText | close => cases own
  | didOpen notebook => exact desk.relay.ledOn_didOpen _ notebook
  | didClose notebook => exact desk.relay.ledOn_didClose _ notebook
  | flush notebook => exact desk.relay.ledOn_flush _ notebook
  | requestFlushed surface method params =>
    exact desk.relay.ledOn_requestFlushed _ surface method params
  | answer message => exact desk.relay.ledOn_answer _ message
  | request | notice | drainDiagnostics | refreshDiagnostics => exact .still

theorem Accounted.step (accounted : desk.Accounted) {dealing : Dealing}
    (admitted : dealing.Admitted) : (desk.perform dealing).Accounted := by
  obtain ⟨asked, relay, workspace, same, continues, handed⟩ := desk.perform_eq_noted admitted
  rw [same]
  exact accounted.noted continues handed

theorem Run.accounted (run : Run desk) : desk.Accounted := by
  induction run with
  | start settings => exact accounted_start settings
  | step dealing _ admitted ih => exact ih.step admitted

/-! ## From one desk to a later one -/

/-- Things happened in any order between two states of the desk. -/
inductive Leads (before : Desk) : Desk → Prop
  | still : Leads before before
  | step {after : Desk} (dealing : Dealing) : Leads before after → dealing.Admitted →
      Leads before (after.perform dealing)

variable {before after : Desk}

theorem Leads.trans (there : before.Leads desk) (onward : desk.Leads after) :
    before.Leads after := by
  induction onward with
  | still => exact there
  | step dealing _ admitted ih => exact ih.step dealing admitted

theorem Leads.run (leads : before.Leads after) (run : Run before) : Run after := by
  induction leads with
  | still => exact run
  | step dealing _ admitted ih => exact ih.step dealing admitted

theorem Leads.continues (leads : before.Leads after) :
    Continues before.workspace after.workspace := by
  induction leads with
  | still => exact .refl _
  | @step middle dealing _ admitted ih =>
    obtain ⟨asked, relay, workspace, same, continues, -⟩ := middle.perform_eq_noted admitted
    rw [same]
    exact ih.trans continues

/-- A number that was given out by then still means the same request, if that still waits. -/
theorem Leads.pending (leads : before.Leads after) (run : Run before) :
    before.relay.next ≤ after.relay.next ∧ ∀ number pending, number < before.relay.next →
      Table.get? after.relay.pending number = some pending →
        Table.get? before.relay.pending number = some pending := by
  induction leads with
  | still => exact ⟨Nat.le_refl _, fun _ _ _ => id⟩
  | @step middle dealing leads admitted ih =>
    obtain ⟨asked, relay, workspace, same, -, handed⟩ := middle.perform_eq_noted admitted
    obtain ⟨bound, ih⟩ := ih
    rw [same]
    refine ⟨?_, fun number pending old waits => ?_⟩
    · change _ ≤ relay.next
      rw [handed.next]
      omega
    · rcases handed.pending (leads.run run).accounted.distinct number pending waits with
        still | ⟨new, -⟩
      · exact ih number pending old still
      · omega

/-! ## What became of a notebook since -/

/-- Of a request that waits: the one entry of the ledger that tells what it found. The surface that
asked belongs to the same notebook as then, if it is still live, and the notebook was led on from then
by operations, if it is still open. -/
theorem Run.recalls (run : Run desk) {number : Nat} {pending : Pending}
    (waits : Table.get? desk.relay.pending number = some pending) :
    ∃ registration ∈ desk.ledger, registration.number = number ∧
      (∀ other ∈ desk.ledger, other.number = number → other = registration) ∧
      ∃ document asked settings,
        pending.Recalls registration.relay registration.workspace document asked ∧
        asked.Reachable settings ∧
        (∀ origin, Origin.of? desk.workspace pending.origin = some origin →
          origin.notebook = pending.notebook) ∧
        ∀ current, desk.workspace.session? pending.notebook = some current →
          asked.Leads current := by
  have accounted := run.accounted
  obtain ⟨registration, member, same, document, asked, recalls⟩ :=
    accounted.pending number pending waits
  obtain ⟨grown, numbered, continues⟩ := accounted.history registration member
  obtain ⟨settings, reachable⟩ := grown _ asked recalls.opened
  obtain ⟨found, live, notebook⟩ := recalls.surface
  refine ⟨registration, member, same, ?_, document, asked, settings, recalls, reachable, ?_, ?_⟩
  · intro other there again
    exact List.inj_on_of_nodup_map accounted.once there member (again.trans same.symm)
  · intro origin located
    obtain ⟨-, now, alive, belongs⟩ := Origin.of?_spec located
    -- The handle was numbered by then, so it still means what it meant.
    have before := continues.surfaces numbered _ now (numbered.surfaces _ found live) alive
    rw [live, Option.some.injEq] at before
    rw [← belongs, ← before, notebook]
  · intro current opened
    obtain ⟨entry, known, -⟩ := entry?_of_session? recalls.opened
    obtain ⟨former, before, leads⟩ :=
      continues.sessions _ current (numbered.notebooks _ entry known) opened
    rw [recalls.opened, Option.some.injEq] at before
    rwa [before]

end Desk

end Notebook.Lsp

import Notebook.Proofs.Lsp.LateAnswer
import Notebook.Proofs.Workspace.Paths
/-!
# A notebook keeps its addresses

The path of a notebook stays, and so do the settings of the relay. So a notebook that is open and
registered has the addresses that it had when it was registered for the first time.
-/
namespace Notebook

/-! ## Settings -/

namespace Lsp

open Workspace

namespace Relay

variable {relay after : Relay} {workspace : Workspace}

theorem alike_flush (relay : Relay) (workspace : Workspace) (id : NotebookId) :
    relay.Alike (relay.flush workspace id).2.1 := by
  rcases relay.flush_cases workspace id with same | ⟨_, _, -, -, same⟩ <;> rw [same] <;>
    exact ⟨rfl, rfl⟩

theorem alike_didOpen (relay : Relay) (workspace : Workspace) (id : NotebookId) :
    relay.Alike (relay.didOpen workspace id).2.1 := by
  unfold didOpen
  split <;> exact ⟨rfl, rfl⟩

theorem alike_requestFlushed (relay : Relay) (workspace : Workspace) (surface : SurfaceId)
    (method : Text) (params : Json) :
    relay.Alike (relay.requestFlushed workspace surface method params).2.1 :=
  requestFlushed_steps (motive := fun after _ => relay.Alike after) ⟨rfl, rfl⟩
    (fun _ _ _ _ _ => ⟨rfl, rfl⟩) (fun id workspace _ => relay.alike_flush workspace id)
    fun after workspace alike =>
      alike.trans (after.asks_request workspace surface method params).toAlike

/-- Documents have the addresses that they had before. -/
def SameAddresses (relay after : Relay) : Prop :=
  ∀ id document, after.document? id = some document →
    ∃ former, relay.document? id = some former ∧ former.addresses = document.addresses

theorem sameAddresses_of_eq (same : after.documents = relay.documents) : relay.SameAddresses after :=
  fun id document registered => ⟨document, by rwa [document?, ← same], rfl⟩

theorem SameAddresses.trans {middle : Relay} (there : relay.SameAddresses middle)
    (onward : middle.SameAddresses after) : relay.SameAddresses after := by
  intro id document registered
  obtain ⟨between, registered, same⟩ := onward id document registered
  obtain ⟨former, registered, kept⟩ := there id between registered
  exact ⟨former, registered, kept.trans same⟩

theorem sameAddresses_flush (relay : Relay) (workspace : Workspace) (id : NotebookId) :
    relay.SameAddresses (relay.flush workspace id).2.1 := by
  rcases relay.flush_cases workspace id with same | ⟨document, _, known, -, same⟩ <;> rw [same]
  · exact sameAddresses_of_eq rfl
  · intro other changed registered
    simp only [document?, Table.get?_set] at registered
    split at registered
    next here =>
      subst here
      obtain rfl := Option.some.inj registered
      exact ⟨document, known, (document.addresses_changed _).symm⟩
    next => exact ⟨changed, registered, rfl⟩

theorem sameAddresses_requestFlushed (relay : Relay) (workspace : Workspace) (surface : SurfaceId)
    (method : Text) (params : Json) :
    relay.SameAddresses (relay.requestFlushed workspace surface method params).2.1 :=
  requestFlushed_steps (motive := fun after _ => relay.SameAddresses after) (sameAddresses_of_eq rfl)
    (fun _ _ _ _ _ => sameAddresses_of_eq rfl) (fun id workspace _ => relay.sameAddresses_flush workspace id)
    fun after workspace there =>
      there.trans (sameAddresses_of_eq (after.asks_request workspace surface method params).documents)

theorem sameAddresses_didClose (relay : Relay) (workspace : Workspace) (id : NotebookId) :
    relay.SameAddresses (relay.didClose workspace id).2.1 := by
  unfold didClose
  split
  next => exact sameAddresses_of_eq rfl
  next =>
    intro other document registered
    simp only [document?, Table.get?_erase] at registered
    split at registered
    · cases registered
    · exact ⟨document, registered, rfl⟩

end Relay

/-! ## Runs -/

namespace Desk

variable {desk before after : Desk}

theorem samePaths_perform (desk : Desk) (dealing : Dealing) :
    SamePaths desk.workspace (desk.perform dealing).workspace := by
  rcases dealing.ofAct_or_ofRelay with ⟨act, rfl⟩ | own
  · rw [perform_ofAct]
    exact desk.workspace.samePaths_perform act
  · exact (desk.ledOn_perform own).samePaths

theorem settings_perform (desk : Desk) (dealing : Dealing) :
    (desk.perform dealing).relay.settings = desk.relay.settings := by
  cases dealing with
  | operate notebook operation =>
    simp only [perform]
    split <;> rfl
  | didOpen notebook => exact (desk.relay.alike_didOpen _ notebook).settings
  | didClose notebook =>
    simp only [perform, Relay.didClose]
    split <;> rfl
  | flush notebook => exact (desk.relay.alike_flush _ notebook).settings
  | request surface method params =>
    exact (desk.relay.asks_request _ surface method params).settings
  | requestFlushed surface method params =>
    exact (desk.relay.alike_requestFlushed _ surface method params).settings
  | answer message => exact (desk.relay.asks_answer _ message).settings
  | notice method params =>
    simp only [perform, Relay.notice]
    split
    · split <;> rfl
    all_goals rfl
  | openEditor | closeEditor | insert | openText | close | drainDiagnostics | refreshDiagnostics => rfl

/-- A notebook that is registered has the addresses of its path, as long as it is open. -/
def Titled (desk : Desk) : Prop :=
  ∀ id document, desk.relay.document? id = some document → id.number < desk.workspace.next ∧
    ∃ path, document.addresses = Addresses.ofPath path desk.relay.settings ∧
      ∀ current, desk.workspace.path? id = some current → current = path

theorem Titled.step (titled : desk.Titled) (run : Run desk) (dealing : Dealing) :
    (desk.perform dealing).Titled := by
  have paths := desk.samePaths_perform dealing
  have settings := desk.settings_perform dealing
  -- What keeps its addresses keeps its path.
  have kept (same : desk.relay.SameAddresses (desk.perform dealing).relay) :
      (desk.perform dealing).Titled := by
    intro id document registered
    obtain ⟨former, known, same⟩ := same id document registered
    obtain ⟨old, path, made, stays⟩ := titled id former known
    refine ⟨Nat.lt_of_lt_of_le old paths.next, path, ?_, fun current opened => ?_⟩
    · rw [← same, made, settings]
    · exact stays current (paths.paths id current old opened)
  cases dealing with
  | operate notebook operation =>
    apply kept
    simp only [perform]
    split <;> exact Relay.sameAddresses_of_eq rfl
  | didOpen notebook =>
    simp only [perform, Relay.didOpen]
    split
    next => exact titled
    next entry opened =>
      intro id document registered
      simp only [Relay.document?, Table.get?_set] at registered
      split at registered
      next here =>
        subst here
        obtain rfl := Option.some.inj registered
        refine ⟨run.accounted.numbered.notebooks _ entry opened, entry.path, rfl, fun current known => ?_⟩
        rw [path?_setSession, path?, opened] at known
        exact (Option.some.inj known).symm
      next =>
        obtain ⟨old, path, made, stays⟩ := titled id document registered
        refine ⟨old, path, made, fun current known => stays current ?_⟩
        rwa [path?_setSession] at known
  | didClose notebook => exact kept (desk.relay.sameAddresses_didClose _ notebook)
  | flush notebook => exact kept (desk.relay.sameAddresses_flush _ notebook)
  | request surface method params =>
    exact kept (Relay.sameAddresses_of_eq (Relay.asks_request _ _ surface method params).documents)
  | requestFlushed surface method params =>
    exact kept (desk.relay.sameAddresses_requestFlushed _ surface method params)
  | answer message =>
    exact kept (Relay.sameAddresses_of_eq (Relay.asks_answer _ _ message).documents)
  | notice method params =>
    exact kept (Relay.sameAddresses_of_eq (Relay.documents_notice _ method params))
  | openEditor | closeEditor | insert | openText | close | drainDiagnostics | refreshDiagnostics =>
    exact kept (Relay.sameAddresses_of_eq rfl)

theorem Run.titled (run : Run desk) : desk.Titled := by
  induction run with
  | start settings =>
    intro id document registered
    cases registered
  | step dealing run _ ih => exact ih.step run dealing

theorem Leads.samePaths (leads : before.Leads after) :
    SamePaths before.workspace after.workspace := by
  induction leads with
  | still => exact .refl _
  | step dealing _ _ ih => exact ih.trans (samePaths_perform _ dealing)

theorem Leads.settings (leads : before.Leads after) :
    after.relay.settings = before.relay.settings := by
  induction leads with
  | still => rfl
  | step dealing _ _ ih => exact (settings_perform _ dealing).trans ih

/-- A notebook that is open and registered, maybe anew, has the addresses that it had. -/
theorem Leads.addresses (leads : before.Leads after) (run : Run before) {id : NotebookId}
    {former current : Document} {session : Session}
    (registered : before.relay.document? id = some former)
    (still : after.relay.document? id = some current)
    (opened : after.workspace.session? id = some session) :
    current.addresses = former.addresses := by
  obtain ⟨entry, known, -⟩ := entry?_of_session? opened
  have there : after.workspace.path? id = some entry.path := congrArg (Option.map _) known
  obtain ⟨old, path, made, stays⟩ := run.titled id former registered
  obtain ⟨-, later, renewed, stayed⟩ := (leads.run run).titled id current still
  rw [made, renewed, leads.settings, ← stays entry.path (leads.samePaths.paths id _ old there),
    ← stayed entry.path there]

end Desk

end Lsp

end Notebook

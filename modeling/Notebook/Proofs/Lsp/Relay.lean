import Notebook.Lsp.Relay.Request
import Notebook.Proofs.Workspace
/-!
# Flushes and requests

A flush of a notebook leaves the other notebooks and their documents alone. A request begins with a
flush, and then only adds to the requests that wait for answers.
-/
namespace Notebook

/-- The session after what its editor holds was brought in, or was refused. -/
def Session.broughtIn (session : Session) : Session :=
  (session.flushed fun session => (.ok (), session)).2

namespace Lsp

/-- A document keeps its addresses when it is changed. -/
theorem Document.addresses_changed (document : Document) (splices : List Splice) :
    (document.changed splices).2.addresses = document.addresses := by
  unfold Document.changed
  split <;> rfl

namespace Relay

open Workspace

variable {relay after : Relay} {workspace : Workspace} {id other : NotebookId}

/-! ## Flushes -/

/-- A flush of a registered notebook succeeds. -/
theorem flush_eq {document : Document} {session : Session}
    (registered : relay.document? id = some document)
    (opened : workspace.session? id = some session) : relay.flush workspace id =
      (.ok (document.changed session.shadow.drained).1, { relay with
        documents := Table.set relay.documents id (document.changed session.shadow.drained).2 },
        workspace.setSession id session.takeShadowSplices.2) := by
  simp only [flush, registered, opened]
  rfl

/-- A flush does nothing, or it takes the recorded changes of an open notebook over into its
document. -/
theorem flush_cases (relay : Relay) (workspace : Workspace) (id : NotebookId) :
    (relay.flush workspace id).2 = (relay, workspace) ∨
    ∃ document session, relay.document? id = some document ∧ workspace.session? id = some session ∧
      (relay.flush workspace id).2 =
        ({ relay with
            documents := Table.set relay.documents id (document.changed session.shadow.drained).2 },
          workspace.setSession id session.takeShadowSplices.2) := by
  cases registered : relay.document? id with
  | none => exact .inl (by simp only [flush, registered])
  | some document =>
    cases opened : workspace.session? id with
    | none => exact .inl (by simp only [flush, registered, opened])
    | some session => exact .inr ⟨document, session, rfl, rfl, by rw [flush_eq registered opened]⟩

/-- A flush of another notebook leaves this one and its document alone. -/
theorem flush_other (relay : Relay) (workspace : Workspace) (different : other ≠ id) :
    (relay.flush workspace other).2.1.document? id = relay.document? id ∧
      (relay.flush workspace other).2.2.session? id = workspace.session? id := by
  rcases relay.flush_cases workspace other with same | ⟨document, session, -, -, same⟩ <;> rw [same]
  · exact ⟨rfl, rfl⟩
  · refine ⟨Table.get?_set_of_ne different _ _, ?_⟩
    rw [session?_setSession, if_neg different]

/-! ## Requests -/

/-- The relay has the same settings, and the same diagnostics wait. -/
structure Alike (relay after : Relay) : Prop where
  settings : after.settings = relay.settings
  publisher : after.publisher = relay.publisher

theorem Alike.trans {middle : Relay} (there : relay.Alike middle) (onward : middle.Alike after) :
    relay.Alike after :=
  ⟨onward.settings.trans there.settings, onward.publisher.trans there.publisher⟩

/-- Only the requests that wait for answers are others. -/
structure Asks (relay after : Relay) : Prop extends Alike relay after where
  documents : after.documents = relay.documents

theorem Asks.refl (relay : Relay) : relay.Asks relay := ⟨⟨rfl, rfl⟩, rfl⟩

theorem Asks.trans {middle : Relay} (there : relay.Asks middle) (onward : middle.Asks after) :
    relay.Asks after :=
  ⟨there.toAlike.trans onward.toAlike, onward.documents.trans there.documents⟩

theorem asks_requestFormat (relay : Relay) (session : Session) (origin : Origin) (uri : Text)
    (options : Json) (applied : Nat) (cells : List Text) :
    relay.Asks (relay.requestFormat session origin uri options applied cells).2 := by
  induction cells with
  | nil => exact .refl relay
  | cons cell remaining ih =>
    unfold requestFormat
    split
    · exact ih
    · exact ⟨⟨rfl, rfl⟩, rfl⟩

/-- A request only adds to the requests that wait for answers. -/
theorem asks_request (relay : Relay) (workspace : Workspace) (surface : SurfaceId)
    (method : Text) (params : Json) :
    relay.Asks (relay.request workspace surface method params).2 := by
  unfold request
  split
  · exact .refl relay
  · split
    · exact .refl relay
    · split
      · exact .refl relay
      · dsimp only
        split
        · exact asks_requestFormat _ _ _ _ _ _ _
        · split <;> exact ⟨⟨rfl, rfl⟩, rfl⟩

/-- A request that concerns another notebook leaves this one and its document alone. -/
theorem requestFlushed_other (relay : Relay) {surface : SurfaceId} {origin : Origin}
    (located : Origin.of? workspace surface = some origin) (different : origin.notebook ≠ id)
    (method : Text) (params : Json) :
    (relay.requestFlushed workspace surface method params).2.1.document? id = relay.document? id ∧
      (relay.requestFlushed workspace surface method params).2.2.session? id =
        workspace.session? id := by
  -- The editor that is brought in belongs to the other notebook as well.
  have kept (session : Session) : (workspace.setSession origin.notebook session).session? id =
      workspace.session? id := by
    rw [session?_setSession, if_neg different]
  unfold requestFlushed
  simp only [located]
  split
  next => exact ⟨rfl, rfl⟩
  next session opened =>
    split
    next fault session refused => exact ⟨rfl, kept session⟩
    next session brought =>
      have flushed := flush_other relay (workspace.setSession origin.notebook session) different
      rw [kept] at flushed
      split
      next fault relay workspace refused =>
        rw [refused] at flushed
        exact flushed
      next change relay workspace told =>
        rw [told] at flushed
        have documents := (asks_request relay workspace surface method params).documents
        split
        next fault last refused =>
          rw [refused] at documents
          exact ⟨(congrArg (Table.get? · id) documents).trans flushed.1, flushed.2⟩
        next request last asked =>
          rw [asked] at documents
          exact ⟨(congrArg (Table.get? · id) documents).trans flushed.1, flushed.2⟩

/-- A request from a registered notebook first brings in what its editor holds, and is refused if that
is. Then it flushes the notebook, and whether the request itself goes out or not, the document was
changed. -/
theorem requestFlushed_cases {surface : SurfaceId} {origin : Origin} {document : Document}
    {session : Session} (located : Origin.of? workspace surface = some origin)
    (registered : relay.document? origin.notebook = some document)
    (opened : workspace.session? origin.notebook = some session) (method : Text) (params : Json) :
    let middle := session.broughtIn
    let told := document.changed middle.shadow.drained
    (∃ fault, relay.requestFlushed workspace surface method params =
      (.error fault, relay, workspace.setSession origin.notebook middle)) ∨
    ∃ (outcome : Except RelayFault (Option Request)) (after : Relay) (changed : Workspace),
      relay.requestFlushed workspace surface method params =
        (outcome.map fun request => (told.1, request), after, changed) ∧
      after.document? origin.notebook = some told.2 ∧
      changed.session? origin.notebook = some middle.takeShadowSplices.2 := by
  intro middle told
  simp only [requestFlushed, located, opened]
  rcases flushed : session.flushed (fun session => (Except.ok (), session)) with ⟨result, current⟩
  obtain rfl : middle = current := congrArg Prod.snd flushed
  have inside : (workspace.setSession origin.notebook middle).session? origin.notebook =
      some middle := by
    rw [session?_setSession, if_pos rfl, opened]
    rfl
  cases result with
  | error fault => exact .inl ⟨_, rfl⟩
  | ok =>
    right
    simp only [flush_eq registered inside]
    -- The request finds the document flushed, and leaves it alone.
    let flushed : Relay := { relay with documents := Table.set relay.documents origin.notebook told.2 }
    let changed := (workspace.setSession origin.notebook middle).setSession origin.notebook
      middle.takeShadowSplices.2
    have documents := (asks_request flushed changed surface method params).documents
    have kept : changed.session? origin.notebook = some middle.takeShadowSplices.2 := by
      rw [session?_setSession, if_pos rfl, inside]
      rfl
    rcases asked : flushed.request changed surface method params with ⟨outcome, after⟩
    rw [asked] at documents
    have there : after.document? origin.notebook = some told.2 :=
      (congrArg (Table.get? · origin.notebook) documents).trans (Table.get?_set_self _ _ _)
    cases outcome with
    | error fault => exact ⟨.error fault, after, changed, rfl, there, kept⟩
    | ok request => exact ⟨.ok request, after, changed, rfl, there, kept⟩

end Relay

end Lsp

end Notebook

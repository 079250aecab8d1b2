import Notebook.Proofs.Lsp.Mirror
import Notebook.Proofs.Lsp.Relay
/-!
# What a server is told of a notebook

A notebook is registered, and then operations on it and on others, flushes and requests follow in any
order. The document mirrors the shadow throughout. The server holds the document as long as every
notification was handed over to it. A request hands over the notification of the flush that it begins
with together with the request itself, and so not at all if it fails after the flush: the document
goes on without the server. This is the only way in which the two part.
-/
namespace Notebook.Lsp

open Text Workspace

/-- The relay and the notebooks, and what the server was told of one of them. -/
structure Traffic where
  relay : Relay
  workspace : Workspace
  /-- The notifications about the notebook that were handed over, oldest first. -/
  sent : List Notification
  /-- How many requests failed after they had made a new version of the document. -/
  withheld : Nat := 0

/-- What happens while a notebook is registered. -/
inductive Exchange where
  | operate (notebook : NotebookId) (operation : Operation)
  /-- The editor of a notebook is opened under a new handle. -/
  | openEditor (notebook : NotebookId) (index : Nat)
  /-- The editor of a notebook is closed with its handle. -/
  | closeEditor (notebook : NotebookId)
  /-- The server is told of the changes of a notebook. -/
  | flush (notebook : NotebookId)
  /-- A request from a surface, with the changes before it. -/
  | request (surface : SurfaceId) (method : Text) (params : Json)

/-- The record of a shadow's changes is left to the relay. -/
def Exchange.leavesRecord : Exchange → Bool
  | .operate _ operation => !operation.concernsRecord
  | _ => true

namespace Traffic

/-- The version of the document of a notebook. -/
def version? (relay : Relay) (id : NotebookId) : Option Nat :=
  (relay.document? id).map (·.version)

/-- The notebook that a surface belongs to. -/
def notebookOf? (workspace : Workspace) (surface : SurfaceId) : Option NotebookId :=
  (Origin.of? workspace surface).map (·.notebook)

/-- Let something happen, and note what the server is told of a notebook. -/
def perform (id : NotebookId) (traffic : Traffic) : Exchange → Traffic
  | .operate notebook operation => match traffic.workspace.session? notebook with
    | none => traffic
    | some session => { traffic with
        workspace := traffic.workspace.setSession notebook (operation.perform session).2 }
  | .openEditor notebook index =>
    { traffic with workspace := (traffic.workspace.openEditor notebook index).2 }
  | .closeEditor notebook =>
    { traffic with workspace := (traffic.workspace.closeEditor notebook).2 }
  | .flush notebook => match traffic.relay.flush traffic.workspace notebook with
    | (.error _, relay, workspace) => { traffic with relay, workspace }
    | (.ok notification, relay, workspace) => { traffic with
        relay, workspace
        sent := traffic.sent ++ if notebook = id then notification.toList else [] }
  | .request surface method params =>
    match traffic.relay.requestFlushed traffic.workspace surface method params with
    | (.error _, relay, workspace) => { traffic with
        relay, workspace
        withheld := traffic.withheld +
          if version? relay id = version? traffic.relay id then 0 else 1 }
    | (.ok (notification, _), relay, workspace) => { traffic with
        relay, workspace
        sent := traffic.sent ++ if notebookOf? traffic.workspace surface = some id then
          notification.toList else [] }

/-- The traffic as an exchange finds it when it tells the server of a notebook: a request from the
notebook first brings in what its editor holds. -/
def met (id : NotebookId) (traffic : Traffic) : Exchange → Traffic
  | .request surface _ _ => match traffic.workspace.session? id with
    | none => traffic
    | some session =>
      if notebookOf? traffic.workspace surface = some id then
        { traffic with workspace := traffic.workspace.setSession id session.broughtIn }
      else traffic
  | _ => traffic

/-- No text of the notebook holds a carriage return, and every text that the shadow went through
since the server was last told can be addressed. -/
def Modest (id : NotebookId) (traffic : Traffic) : Prop :=
  ∀ session ∈ traffic.workspace.session? id, session.Unreturned ∧
    ∀ document ∈ traffic.relay.document? id, Passable document session.shadow

instance (id : NotebookId) (traffic : Traffic) : Decidable (Modest id traffic) :=
  inferInstanceAs (Decidable (∀ session ∈ traffic.workspace.session? id, session.Unreturned ∧
    ∀ document ∈ traffic.relay.document? id, Passable document session.shadow))

/-- An exchange leaves the record to the relay and is modest all the way. -/
structure Admits (id : NotebookId) (traffic : Traffic) (exchange : Exchange) : Prop where
  apart : exchange.leavesRecord = true
  met : (traffic.met id exchange).Modest id
  modest : (traffic.perform id exchange).Modest id

/-- A notebook was registered and other things happened after that, all of them modest. -/
inductive Run (id : NotebookId) : Traffic → Prop
  | opened {relay after : Relay} {workspace registered : Workspace} {session : Session}
      {notification : Notification} :
      workspace.session? id = some session → session.NeverReturned →
      relay.didOpen workspace id = (.ok notification, after, registered) →
      Modest id { relay := after, workspace := registered, sent := [notification] } →
      Run id { relay := after, workspace := registered, sent := [notification] }
  | step {traffic : Traffic} (exchange : Exchange) : Run id traffic → traffic.Admits id exchange →
      Run id (traffic.perform id exchange)

end Traffic

/-! ## The document follows the shadow, and the server the document -/

namespace Traffic

/-- The document mirrors the shadow, and every version of it that was made was handed over or
withheld. Unless one was withheld, the server holds the document. -/
structure Follows (id : NotebookId) (traffic : Traffic) (document : Document) (session : Session) :
    Prop where
  registered : traffic.relay.document? id = some document
  opened : traffic.workspace.session? id = some session
  mirrors : Mirrors document session
  passable : Passable document session.shadow
  count : traffic.sent.length + traffic.withheld = document.version + 1
  /-- The server holds the document, and knows each of its versions, unless one was withheld. -/
  faithful : traffic.withheld = 0 → Server.text? traffic.sent = some document.text ∧
    traffic.sent.map Server.version? = (List.range (document.version + 1)).map some

variable {id : NotebookId} {traffic after : Traffic} {document : Document} {session : Session}

/-- What an operation on the notebook does to its session. -/
theorem Follows.operated (follows : Follows id traffic document session)
    (relay : after.relay.document? id = traffic.relay.document? id) {changed : Session}
    (workspace : after.workspace.session? id = some changed) (sent : after.sent = traffic.sent)
    (withheld : after.withheld = traffic.withheld) (trail : session.Trail changed)
    (modest : after.Modest id) : Follows id after document changed := by
  have registered := relay.trans follows.registered
  obtain ⟨unreturned, passable⟩ := modest changed workspace
  exact ⟨registered, workspace, follows.mirrors.trail trail unreturned, passable document registered,
    by rw [sent, withheld]; exact follows.count, by rw [sent, withheld]; exact follows.faithful⟩

/-- What happens to other notebooks does not concern this one. -/
theorem Follows.of_same (follows : Follows id traffic document session)
    (relay : after.relay.document? id = traffic.relay.document? id)
    (workspace : after.workspace.session? id = traffic.workspace.session? id)
    (sent : after.sent = traffic.sent) (withheld : after.withheld = traffic.withheld) :
    Follows id after document session :=
  ⟨relay.trans follows.registered, workspace.trans follows.opened, follows.mirrors,
    follows.passable, by rw [sent, withheld]; exact follows.count,
    by rw [sent, withheld]; exact follows.faithful⟩

/-- A server that is told more goes on from what it held. -/
theorem text?_append {sent : List Notification} {text : Text} (held : Server.text? sent = some text)
    (more : List Notification) :
    Server.text? (sent ++ more) = more.foldlM Server.receive? text := by
  cases sent with
  | nil => cases held
  | cons opening changes =>
    rw [Server.text?, Option.bind_eq_bind, Option.bind_eq_some_iff] at held
    obtain ⟨first, opened, held⟩ := held
    rw [List.cons_append, Server.text?, opened, Option.bind_eq_bind, Option.bind_some,
      List.foldlM_append, held, Option.bind_eq_bind, Option.bind_some]

/-- The traffic after the changes of a session were told. -/
structure Told (id : NotebookId) (traffic after : Traffic) (document : Document) (session : Session) :
    Prop where
  registered : after.relay.document? id = some (document.changed session.shadow.drained).2
  opened : after.workspace.session? id = some session.takeShadowSplices.2
  /-- The notification was handed over, or it was withheld if there was one. -/
  outcome : after.sent = traffic.sent ++ (document.changed session.shadow.drained).1.toList ∧
      after.withheld = traffic.withheld ∨
    after.sent = traffic.sent ∧ after.withheld = traffic.withheld +
      if (document.changed session.shadow.drained).2.version = document.version then 0 else 1

/-- A server that was handed the notification holds what the document then holds. -/
theorem Follows.handed (follows : Follows id traffic document session) {middle : Session}
    (mirrors : Mirrors document middle) (passable : Passable document middle.shadow)
    (none : traffic.withheld = 0) :
    let told := document.changed middle.shadow.drained
    Server.text? (traffic.sent ++ told.1.toList) = some told.2.text ∧
      (traffic.sent ++ told.1.toList).map Server.version? =
        (List.range (told.2.version + 1)).map some := by
  intro told
  obtain ⟨-, -, received, version, versions⟩ := mirrors.changed passable
  obtain ⟨held, known⟩ := follows.faithful none
  refine ⟨by rw [text?_append held, received], ?_⟩
  -- The versions that are new go on where those that were sent end.
  have row := List.range'_append_1 (s := 0) (m := document.version + 1) (n := told.1.toList.length)
  rw [Nat.zero_add] at row
  rw [List.map_append, known, versions, version, ← List.map_append, Nat.add_right_comm,
    List.range_eq_range', List.range_eq_range', row]

/-- After the document was brought up to the shadow it follows it again. -/
theorem Follows.told (follows : Follows id traffic document session) {middle : Session}
    (mirrors : Mirrors document middle) (passable : Passable document middle.shadow)
    (told : Told id traffic after document middle) (modest : after.Modest id) :
    Follows id after (document.changed middle.shadow.drained).2 middle.takeShadowSplices.2 ∧
      (document.changed middle.shadow.drained).2.text = middle.takeShadowSplices.2.shadow.text := by
  have handed := follows.handed mirrors passable
  obtain ⟨mirrors, text, -, version, -⟩ := mirrors.changed passable
  have count := follows.count
  refine ⟨⟨told.registered, told.opened, mirrors, (modest _ told.opened).2 _ told.registered, ?_, ?_⟩,
    text⟩
  · rcases told.outcome with ⟨sent, withheld⟩ | ⟨sent, withheld⟩
    · rw [sent, withheld, version, List.length_append]
      omega
    · have one : (document.changed middle.shadow.drained).1.toList.length ≤ 1 :=
        Option.length_toList_le
      rw [sent, withheld]
      split <;> omega
  · intro none
    rcases told.outcome with ⟨sent, withheld⟩ | ⟨sent, withheld⟩
    · rw [sent]
      exact handed (withheld.symm.trans none)
    · -- Nothing was withheld, so there was nothing to tell.
      rw [withheld] at none
      have nothing : (document.changed middle.shadow.drained).1.toList = [] := by
        rw [← List.length_eq_zero_iff]
        split at none <;> omega
      have kept := handed (by omega)
      dsimp only at kept
      rw [nothing, List.append_nil] at kept
      rw [sent]
      exact kept

/-- A flush brings the document up to the shadow. -/
theorem Follows.flush (follows : Follows id traffic document session)
    (modest : (traffic.perform id (.flush id)).Modest id) : ∃ document session,
    Follows id (traffic.perform id (.flush id)) document session ∧
      document.text = session.shadow.text := by
  have performed : traffic.perform id (.flush id) =
      ⟨{ traffic.relay with
          documents := Table.set traffic.relay.documents id
            (document.changed session.shadow.drained).2 },
        traffic.workspace.setSession id session.takeShadowSplices.2,
        traffic.sent ++ (document.changed session.shadow.drained).1.toList, traffic.withheld⟩ := by
    simp only [perform, Relay.flush_eq follows.registered follows.opened, if_true]
  refine ⟨_, _, follows.told follows.mirrors follows.passable ⟨?_, ?_, .inl ?_⟩ modest⟩
  · rw [performed]
    exact Table.get?_set_self _ _ _
  · rw [performed, session?_setSession, if_pos rfl, follows.opened]
    rfl
  · rw [performed]
    exact ⟨rfl, rfl⟩

/-- The exchange tells the server of the changes of a notebook, and succeeds. -/
def tells (id : NotebookId) (traffic : Traffic) : Exchange → Prop
  | .flush notebook => notebook = id
  | .request surface method params => notebookOf? traffic.workspace surface = some id ∧
    ∃ result, (traffic.relay.requestFlushed traffic.workspace surface method params).1 = .ok result
  | _ => False

/-- A request is refused before it flushes the notebook, if it concerns the notebook at all, or else
the changes are told. -/
theorem Follows.perform_request (follows : Follows id traffic document session) (surface : SurfaceId)
    (method : Text) (params : Json) :
    let exchange := Exchange.request surface method params
    let after := traffic.perform id exchange
    (after.relay.document? id = traffic.relay.document? id ∧ after.sent = traffic.sent ∧
      after.withheld = traffic.withheld ∧ ¬traffic.tells id exchange ∧
      (after.workspace.session? id = traffic.workspace.session? id ∨
        after.workspace.session? id = some session.broughtIn)) ∨
    (notebookOf? traffic.workspace surface = some id ∧
      Told id traffic after document session.broughtIn) := by
  intro exchange after
  simp only [after, exchange, perform, tells]
  cases located : Origin.of? traffic.workspace surface with
  | none => simp [Relay.requestFlushed, located, notebookOf?]
  | some origin =>
    have about : notebookOf? traffic.workspace surface = some origin.notebook := by
      rw [notebookOf?, located, Option.map_some]
    simp only [about, Option.some.injEq]
    by_cases here : origin.notebook = id
    · subst here
      rcases Relay.requestFlushed_cases located follows.registered follows.opened method params with
        ⟨fault, refused⟩ | ⟨outcome, relay, workspace, done, registered, opened⟩
      · left
        simp [refused, version?, session?_setSession, follows.opened]
      · right
        rw [done]
        refine ⟨rfl, ?_⟩
        cases outcome with
        | error fault =>
          refine ⟨registered, opened, .inr ⟨rfl, ?_⟩⟩
          simp only [Except.map, version?, registered, follows.registered, Option.map_some,
            Option.some.injEq]
        | ok request => exact ⟨registered, opened, .inl ⟨by simp [Except.map], rfl⟩⟩
    · left
      have apart := traffic.relay.requestFlushed_other located here method params
      rcases asked : traffic.relay.requestFlushed traffic.workspace surface method params with
        ⟨answer, relay, workspace⟩
      rw [asked] at apart
      -- The version of this document stays, so nothing counts as withheld.
      have still : version? relay id = version? traffic.relay id := by
        rw [version?, version?, apart.1]
      cases answer with
      | error fault => simp [apart, still, here]
      | ok result => simp [apart, here]

theorem Follows.request (follows : Follows id traffic document session) {surface : SurfaceId}
    {method : Text} {params : Json} (admits : traffic.Admits id (.request surface method params)) :
    ∃ document session, Follows id (traffic.perform id (.request surface method params)) document
      session ∧ (traffic.tells id (.request surface method params) →
        document.text = session.shadow.text) := by
  have trail : session.Trail session.broughtIn := session.trail_flushed fun _ => .of_same rfl
  rcases follows.perform_request surface method params with
    ⟨relay, sent, withheld, silent, same | changed⟩ | ⟨about, told⟩
  · exact ⟨document, session, follows.of_same relay same sent withheld, fun tells =>
      absurd tells silent⟩
  · exact ⟨document, _, follows.operated relay changed sent withheld trail admits.modest,
      fun tells => absurd tells silent⟩
  · have met := admits.met
    -- The text that is told is that of the session after its editor was brought in.
    simp only [Traffic.met, follows.opened, if_pos about] at met
    obtain ⟨unreturned, passable⟩ := met session.broughtIn (by
      rw [session?_setSession, if_pos rfl, follows.opened]
      rfl)
    obtain ⟨follows, text⟩ := follows.told (follows.mirrors.trail trail unreturned)
      (passable document follows.registered) told admits.modest
    exact ⟨_, _, follows, fun _ => text⟩

/-- The document goes on mirroring the shadow whatever happens. -/
theorem Follows.step (follows : Follows id traffic document session) (exchange : Exchange)
    (admits : traffic.Admits id exchange) :
    ∃ document session, Follows id (traffic.perform id exchange) document session ∧
      (traffic.tells id exchange → document.text = session.shadow.text) := by
  cases exchange with
  | operate notebook operation =>
    have alone : operation.concernsRecord = false := by
      simpa [Exchange.leavesRecord] using admits.apart
    by_cases here : notebook = id
    · subst here
      refine ⟨document, (operation.perform session).2, follows.operated ?_ ?_ ?_ ?_
        (session.trail_perform operation alone) admits.modest, False.elim⟩ <;>
        simp [perform, follows.opened, session?_setSession]
    · cases found : traffic.workspace.session? notebook with
      | none =>
        refine ⟨document, session, follows.of_same ?_ ?_ ?_ ?_, False.elim⟩ <;>
          simp only [perform, found]
      | some other =>
        refine ⟨document, session, follows.of_same ?_ ?_ ?_ ?_, False.elim⟩ <;>
          simp [perform, found, session?_setSession, here]
  | openEditor notebook index =>
    by_cases here : notebook = id
    · refine ⟨document, (session.openEditor index).2, follows.operated ?_ ?_ ?_ ?_
        (session.trail_openEditor index) admits.modest, False.elim⟩ <;>
        simp [perform, session?_openEditor, here, follows.opened]
    · refine ⟨document, session, follows.of_same ?_ ?_ ?_ ?_, False.elim⟩ <;>
        simp [perform, session?_openEditor, here]
  | closeEditor notebook =>
    by_cases here : notebook = id
    · refine ⟨document, session.closeEditor, follows.operated ?_ ?_ ?_ ?_
        session.trail_closeEditor admits.modest, False.elim⟩ <;>
        simp [perform, session?_closeEditor, here, follows.opened]
    · refine ⟨document, session, follows.of_same ?_ ?_ ?_ ?_, False.elim⟩ <;>
        simp [perform, session?_closeEditor, here]
  | flush notebook =>
    by_cases here : notebook = id
    · subst here
      obtain ⟨document, session, follows, text⟩ := follows.flush admits.modest
      exact ⟨document, session, follows, fun _ => text⟩
    · have apart := traffic.relay.flush_other traffic.workspace here
      rcases flushed : traffic.relay.flush traffic.workspace notebook with ⟨outcome, relay, workspace⟩
      rw [flushed] at apart
      refine ⟨document, session, follows.of_same ?_ ?_ ?_ ?_, fun same => absurd same here⟩ <;>
        cases outcome <;> simp [perform, flushed, apart, here]
  | request surface method params => exact follows.request admits

/-- When a notebook is registered, the document and the server hold the text of its shadow. -/
theorem follows_didOpen {relay registered : Relay} {workspace opened : Workspace}
    {notification : Notification} (here : workspace.session? id = some session)
    (clean : session.NeverReturned)
    (announced : relay.didOpen workspace id = (.ok notification, registered, opened))
    (modest : Modest id { relay := registered, workspace := opened, sent := [notification] }) :
    ∃ document, Follows id { relay := registered, workspace := opened, sent := [notification] }
      document (session.trackShadow true) := by
  obtain ⟨unreturned, shadow⟩ := clean.unreturned
  simp only [Workspace.session?, Option.map_eq_some_iff] at here
  obtain ⟨entry, found, rfl⟩ := here
  simp only [Relay.didOpen, found, Prod.mk.injEq, Except.ok.injEq] at announced
  obtain ⟨rfl, rfl, rfl⟩ := announced
  let tracked := entry.session.trackShadow true
  let document := Document.start entry.path (Addresses.ofPath entry.path relay.settings)
    tracked.shadow.text
  have replica : document.replica = ⟨Text.lines tracked.shadow.text⟩ :=
    congrArg Replica.mk (Replica.linesOf_eq shadow)
  have text : document.text = tracked.shadow.text := by
    rw [Document.text, Replica.text, replica, unlines_lines]
  have inside : (workspace.setSession id tracked).session? id = some tracked := by
    rw [session?_setSession, if_pos rfl, Workspace.session?, found]
    rfl
  have registered : Relay.document? { relay with
      documents := Table.set relay.documents id document } id = some document :=
    Table.get?_set_self _ _ _
  refine ⟨document, registered, inside, ⟨unreturned, ?_, ?_, [], rfl, ?_, by simp⟩,
    (modest _ inside).2 _ registered, rfl, fun _ => ⟨rfl, rfl⟩⟩
  · rw [replica, text]
  · rw [text]
    exact shadow
  · rw [text]
    exact .done _

theorem Run.follows (run : Run id traffic) : ∃ document session,
    Follows id traffic document session := by
  induction run with
  | @opened relay after workspace registered session notification here clean announced modest =>
    obtain ⟨document, follows⟩ := follows_didOpen here clean announced modest
    exact ⟨document, _, follows⟩
  | step exchange _ admits ih =>
    obtain ⟨document, session, follows⟩ := ih
    obtain ⟨document, session, follows, -⟩ := follows.step exchange admits
    exact ⟨document, session, follows⟩

/-- After every flush of a registered notebook, be it alone or at the beginning of a request that
succeeds, the document holds the text of the shadow. The server holds it as well and knows every
version of the document, in order and none twice, exactly if no request failed after the flush that it
begins with. -/
theorem Run.server_follows (run : Run id traffic) {exchange : Exchange}
    (admits : traffic.Admits id exchange) (tells : traffic.tells id exchange) :
    ∃ document session, (traffic.perform id exchange).relay.document? id = some document ∧
      (traffic.perform id exchange).workspace.session? id = some session ∧
      document.text = session.shadow.text ∧
      (Server.text? (traffic.perform id exchange).sent = some session.shadow.text ∧
        (traffic.perform id exchange).sent.map Server.version? =
          (List.range (document.version + 1)).map some ↔
        (traffic.perform id exchange).withheld = 0) := by
  obtain ⟨document, session, follows⟩ := run.follows
  obtain ⟨document, session, follows, text⟩ := follows.step exchange admits
  refine ⟨document, session, follows.registered, follows.opened, text tells, ?_, ?_⟩
  -- Every version was handed over or withheld, so the number of those sent tells which.
  · rintro ⟨-, versions⟩
    have length := congrArg List.length versions
    have count := follows.count
    rw [List.length_map, List.length_map, List.length_range] at length
    omega
  · intro none
    rw [← text tells]
    exact follows.faithful none

/-- A request to format a range that is not given fails after its flush. The next flush brings the
document up to the shadow, but the server is never told of the change before the request. -/
theorem server_left_behind : ∃ (session : Session) (opened last : Traffic),
    Session.ofCells [{ id := "a", kind := .code, source := "x = 1" }] {} = .ok session ∧
    (∃ notification, Relay.didOpen {} (Workspace.insert {} "/a.ipynb" session).2 ⟨0⟩ =
      (.ok notification, opened.relay, opened.workspace) ∧ opened.sent = [notification]) ∧
    last = [.operate ⟨0⟩ (.setSource 0 "x = 2"),
      .request ⟨1⟩ "textDocument/rangeFormatting" (Json.object []), .flush ⟨0⟩].foldl
        (perform ⟨0⟩) opened ∧
    Server.text? last.sent = some "\nx = 1\n\n" ∧ ∃ document session,
      last.relay.document? ⟨0⟩ = some document ∧ last.workspace.session? ⟨0⟩ = some session ∧
      document.text = session.shadow.text ∧ ¬(Server.text? last.sent = some session.shadow.text ∧
        last.sent.map Server.version? = (List.range (document.version + 1)).map some) := by
  refine ⟨_, ⟨_, _, _, 0⟩, _, rfl, ⟨_, rfl, rfl⟩, rfl, by decide +kernel, ?_⟩
  have opened : Run ⟨0⟩ ⟨_, _, _, 0⟩ := .opened rfl
    (.cells (rfl : Session.ofCells [{ id := "a", kind := .code, source := "x = 1" }] {} = .ok _)
      (by decide +kernel))
    (rfl : Relay.didOpen {} (Workspace.insert {} "/a.ipynb" _).2 ⟨0⟩ = _) (by decide +kernel)
  have changed := opened.step (.operate ⟨0⟩ (.setSource 0 "x = 2"))
    ⟨rfl, by decide +kernel, by decide +kernel⟩
  have failed := changed.step (.request ⟨1⟩ "textDocument/rangeFormatting" (Json.object []))
    ⟨rfl, by decide +kernel, by decide +kernel⟩
  obtain ⟨document, session, registered, here, text, held⟩ := failed.server_follows
    (⟨rfl, by decide +kernel, by decide +kernel⟩ : Admits ⟨0⟩ _ (.flush ⟨0⟩)) rfl
  refine ⟨document, session, registered, here, text, fun kept => ?_⟩
  exact absurd (held.mp kept) (by decide +kernel)

end Traffic

end Notebook.Lsp

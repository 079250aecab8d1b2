import Notebook.Lsp.Message
import Notebook.Lsp.Readdress
import Notebook.Lsp.Relay.Basic
/-!
# Notifications on the way in

Diagnostics of a registered notebook wait until they are drained, messages go to the user or into
a log, and everything else is handed on with shadows named by their previews.
-/
namespace Notebook.Lsp

inductive NoticeOutcome where
  | queued (notebook : NotebookId)
  | notify (message : UserMessage)
  | log (message : UserMessage)
  | handedOn (notification : Notification)
  deriving DecidableEq, Repr

namespace Relay

/-- A notification in which shadows are named by their previews. -/
def handOn (relay : Relay) (method : Text) (params : Json) : Notification where
  method := method
  params := relay.documents.foldl (fun params entry =>
    ({ shadow := entry.2.addresses.shadow, target := entry.2.addresses.preview } :
      Readdressing).inbound false params) params

def notice (relay : Relay) (method : Text) (params : Json) : NoticeOutcome × Relay :=
  match ServerNotice.decode? method params with
  | some (.diagnostics set) => match relay.notebookOf? set.uri with
    | some id => (.queued id, { relay with publisher := relay.publisher.schedule id set })
    | none => (.handedOn (relay.handOn method params), relay)
  | some (.display message) => (.notify message, relay)
  | some (.log message) => (.log message, relay)
  | none => (.handedOn (relay.handOn method params), relay)

def drainDiagnostics (relay : Relay) (workspace : Workspace) : List Published × Relay :=
  let (published, publisher) := relay.publisher.drain workspace fun id =>
    (relay.addresses? id).map (·.facade)
  (published, { relay with publisher })

/-- Let the diagnostics of a notebook wait again. The flag tells whether there are any. -/
def refreshDiagnostics (relay : Relay) (id : NotebookId) : Bool × Relay :=
  let (known, publisher) := relay.publisher.refresh id
  (known, { relay with publisher })

end Relay

end Notebook.Lsp

import Notebook.Json.Value
/-!
# Messages to a language server

Messages follow JSON-RPC 2.0. A notification expects no answer; a request has a number by which
its answer is recognized.
-/
namespace Notebook.Lsp

structure Notification where
  method : Text
  params : Json
  deriving DecidableEq, Repr

structure Request where
  id : Nat
  method : Text
  params : Json
  deriving DecidableEq, Repr

def Notification.encode (notification : Notification) : Json :=
  Json.object [("jsonrpc", .str "2.0"), ("method", .str notification.method),
    ("params", notification.params)]

def Request.encode (request : Request) : Json :=
  Json.object [("jsonrpc", .str "2.0"), ("id", .nat request.id),
    ("method", .str request.method), ("params", request.params)]

end Notebook.Lsp

import Notebook.Lsp.Replica
import Notebook.Lsp.Outgoing
import Notebook.Uri.Addresses
/-!
# Shadows on a language server

The shadow of a registered notebook is a document of the language server. It is announced with its
text as version zero, and each batch of changes makes the next version.
-/
namespace Notebook.Lsp

/-- A shadow as the language server knows it. -/
structure Document where
  path : Text
  addresses : Addresses
  version : Nat := 0
  replica : Replica
  deriving DecidableEq, Repr

namespace Document

/-- The document of a notebook whose shadow has a given text. -/
def start (path : Text) (addresses : Addresses) (text : Text) : Document :=
  { path, addresses, replica := Replica.ofText text }

/-- The text that the language server holds. -/
def text (document : Document) : Text := document.replica.text

def opened (document : Document) (languageId : Text) : Notification where
  method := "textDocument/didOpen"
  params := Json.object [("textDocument", Json.object [
    ("uri", .str document.addresses.shadow), ("languageId", .str languageId),
    ("version", .nat document.version), ("text", .str document.text)])]

/-- Tells of splices, if there are any. -/
def changed (document : Document) (splices : List Splice) : Option Notification × Document :=
  if splices = [] then (none, document)
  else
    let (changes, replica) := document.replica.follow splices
    let document := { document with replica, version := document.version + 1 }
    (some {
      method := "textDocument/didChange"
      params := Json.object [
        ("textDocument", Json.object [
          ("uri", .str document.addresses.shadow), ("version", .nat document.version)]),
        ("contentChanges", .arr (changes.map TextChange.encode))] }, document)

def closed (document : Document) : Notification where
  method := "textDocument/didClose"
  params := Json.object [
    ("textDocument", Json.object [("uri", .str document.addresses.shadow)])]

end Document

end Notebook.Lsp

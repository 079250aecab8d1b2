import Notebook.Lsp.Diagnostic
/-!
# Messages from a language server

Of what a language server sends, only those parts are interpreted that the relay needs: answers
to requests, diagnostics, and messages meant for the user.
-/
namespace Notebook.Lsp

inductive Level where
  | error
  | warning
  | info
  | log
  deriving DecidableEq, Repr

def Level.ofNumber? : Nat → Option Level
  | 1 => some error
  | 2 => some warning
  | 3 => some info
  | 4 => some log
  | _ => none

structure UserMessage where
  level : Level
  text : Text
  deriving DecidableEq, Repr

def UserMessage.decode? (value : Json) : Option UserMessage := do
  let level ← Level.ofNumber? (← (← value.get? "type").asNat?)
  let text ← (← value.get? "message").asText?
  some ⟨level, text⟩

/-- A notification of a kind that is interpreted. -/
inductive ServerNotice where
  | display (message : UserMessage)
  | log (message : UserMessage)
  | diagnostics (set : DiagnosticSet)
  deriving DecidableEq, Repr

/-- A notification from its method and its JSON form. -/
def ServerNotice.decode? (method : Text) (params : Json) : Option ServerNotice :=
  if method = "window/showMessage" then (UserMessage.decode? params).map .display
  else if method = "window/logMessage" then (UserMessage.decode? params).map .log
  else if method = "textDocument/publishDiagnostics" then
    (DiagnosticSet.decode? params).map .diagnostics
  else none

/-- Why a language server refused a request. -/
structure ServerError where
  code : Int
  message : Text
  /-- Details, if the server gives any. -/
  data : Option Json := none
  deriving DecidableEq, Repr

def ServerError.decode? (value : Json) : Option ServerError := do
  let code ← (← value.get? "code").asInt?
  some {
    code
    message := ((value.get? "message").bind Json.asText?).getD []
    data := value.get? "data" }

/-- The server gave the request up because it was cancelled or the document changed. -/
def ServerError.isWithdrawal (error : ServerError) : Bool :=
  error.code = -32800 || error.code = -32801

structure Response where
  id : Nat
  /-- The result, if there is one. -/
  result : Option Json
  /-- The error, if there is one. -/
  error : Option ServerError
  deriving DecidableEq, Repr

/-- An answer from its JSON form. What names a method is not an answer. -/
def Response.decode? (message : Json) : Option Response := do
  let id ← (← message.get? "id").asNat?
  -- Requests of the server have numbers too.
  if (message.get? "method").isSome then none
  else some {
    id
    result := message.get? "result"
    error := (message.get? "error").bind ServerError.decode? }

end Notebook.Lsp

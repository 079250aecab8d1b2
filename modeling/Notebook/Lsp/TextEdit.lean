import Notebook.Lsp.Range
import Notebook.Session.Change
/-!
# Edits proposed by a language server

Rename and formatting answers propose replacements in the shadow. Its lines are those of the
facade, so only columns have to be converted, from code units to characters. Whatever does not
have the form of an edit is passed over.
-/
namespace Notebook.Lsp

structure TextEdit where
  range : Range
  text : Text
  deriving DecidableEq, Repr

namespace TextEdit

/-- A replacement from its JSON form. Without a text it deletes. -/
def decode? (value : Json) : Option TextEdit := do
  let range ← Range.decode? (← value.get? "range")
  some ⟨range, ((value.get? "newText").bind Json.asText?).getD []⟩

def decodeAll (value : Json) : List TextEdit := (value.asItems?.getD []).filterMap decode?

/-- The place in the facade that a point names. In a line that does not exist there is only
column zero. -/
def place (facade : Buffer) (point : Point) : Position :=
  ⟨point.line, Text.charOffset ((Text.line? facade.text point.line).getD []) point.character⟩

/-- The same replacement in the facade. -/
def toEdit (facade : Buffer) (edit : TextEdit) : Edit :=
  ⟨place facade edit.range.start, place facade edit.range.stop, edit.text⟩

/-- The same replacements in the facade, from the bottom up. -/
def toEdits (facade : Buffer) (edits : List TextEdit) : List Edit :=
  Edit.bottomUp (edits.map (toEdit facade))

end TextEdit

/-! ## Edits of several documents -/

namespace WorkspaceEdit

/-- Changes of the form that lists documents one after the other. -/
def documentChanges (value : Json) : List Json :=
  ((value.get? "documentChanges").bind Json.asItems?).getD []

/-- The document that such a change names. -/
def changedUri? (change : Json) : Option Text := do
  (← (← change.get? "textDocument").get? "uri").asText?

/-- All replacements in one document, those listed by document name first. -/
def editsFor (value : Json) (uri : Text) : List TextEdit :=
  let byName := match (value.get? "changes").bind fun changes => changes.get? uri with
    | some edits => TextEdit.decodeAll edits
    | none => []
  let listed := (documentChanges value).flatMap fun change =>
    if changedUri? change = some uri then
      ((change.get? "edits").map TextEdit.decodeAll).getD []
    else []
  byName ++ listed

/-- Put a name into a sorted list of names unless it is there. -/
def insertName (name : Text) : List Text → List Text
  | [] => [name]
  | other :: rest =>
    if name = other then other :: rest
    else if name < other then name :: other :: rest
    else other :: insertName name rest

/-- The documents that are changed, sorted and each once. -/
def uris (value : Json) : List Text :=
  let byName := (((value.get? "changes").bind Json.asMembers?).getD []).map (·.1)
  (byName ++ (documentChanges value).filterMap changedUri?).foldr insertName []

/-- The versions of one document that the changes were made for, where they tell. -/
def versionsFor (value : Json) (uri : Text) : List Int :=
  (documentChanges value).filterMap fun change => do
    let document ← change.get? "textDocument"
    if (document.get? "uri").bind Json.asText? = some uri then
      (← document.get? "version").asInt?
    else none

end WorkspaceEdit

end Notebook.Lsp

import Notebook.Json.Decode
/-!
# Settings

Every setting has a default. A stored record of settings is an object or an array of the fields
in order, of which the last ones may be missing. Members with other names are passed over.
-/
namespace Notebook

/-- Python expression that gives the type name of every public global. -/
def defaultNamespaceExpression : Text :=
  "\x7bk: type(v).__name__ for k, v in list(globals().items()) if not k.startswith('_')\x7d"

structure Settings where
  tag : Text := "ipynb"
  maxUndo : Nat := 1000
  /-- Kernel language of a notebook that does not name one. -/
  language : Text := "python"
  /-- Expression that summarizes the namespace after an execution, if that is wanted. -/
  namespaceExpression : Option Text := some defaultNamespaceExpression
  deriving DecidableEq, Repr

/-- Settings of the language-server side. -/
structure RelaySettings where
  previewScheme : Text := "ipynb"
  /-- Extension that turns the path of a notebook into that of its shadow. -/
  shadowExtension : Text := "py"
  languageId : Text := "python"
  /-- Milliseconds to wait before a hover request. -/
  hoverDelay : Nat := 150
  deriving DecidableEq, Repr

namespace Json.Tree

/-- The fields of a record in order, from an object or an array. In an array each item is a field
and there is none without a field. Names of members have to be readable, their values only where
the name is known. -/
def fields? (names : List Text) : Tree → Option (List (Option Tree))
  | .obj members =>
    if members.all (·.1.isSome) then names.mapM (member? members) else none
  | .arr items =>
    if items.length ≤ names.length then
      some (items.map some ++ List.replicate (names.length - items.length) none)
    else none
  | _ => none

end Json.Tree

open Json.Tree

def Settings.decode? (tree : Json.Tree) : Option Settings := do
  match ← fields? ["marker_tag", "max_undo", "default_language", "namespace_expression"] tree with
  | [tag, maxUndo, language, expression] =>
    let fallback : Settings := {}
    some {
      tag := ← withDefault? fallback.tag text? tag
      maxUndo := ← withDefault? fallback.maxUndo (natural? 64) maxUndo
      language := ← withDefault? fallback.language text? language
      namespaceExpression :=
        ← withDefault? fallback.namespaceExpression (fun tree => optional? text? (some tree))
          expression }
  | _ => none

/-- Settings of the language-server side from their stored form. -/
def RelaySettings.decode? (tree : Json.Tree) : Option RelaySettings := do
  match ← fields? ["synthetic_scheme", "shadow_extension", "language_id", "hover_delay_ms"]
      tree with
  | [scheme, extension, languageId, hoverDelay] =>
    let fallback : RelaySettings := {}
    some {
      previewScheme := ← withDefault? fallback.previewScheme text? scheme
      shadowExtension := ← withDefault? fallback.shadowExtension text? extension
      languageId := ← withDefault? fallback.languageId text? languageId
      hoverDelay := ← withDefault? fallback.hoverDelay (natural? 64) hoverDelay }
  | _ => none

end Notebook

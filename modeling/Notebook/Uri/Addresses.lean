import Notebook.Settings
import Notebook.Uri.FilePath
/-!
# Addresses of a notebook

A notebook is addressed in three ways: by the file URI of its path, by the file URI of its
shadow, which is the only document a language server knows, and by the URI of a read-only
preview. The latter shows the file name and carries the whole path in its query, which keeps
notebooks of one name apart.
-/
namespace Notebook

namespace Uri

def preview (path scheme : Text) : Text :=
  scheme ++ "://" ++ encode (fileName path) ++ "?path=" ++ encode path

/-- What stands before and after the first question mark of a preview URI of that scheme. -/
def previewParts? (uri scheme : Text) : Option (Text × Option Text) := do
  let rest ← Text.after? "://" (← Text.after? scheme uri)
  let name := rest.takeWhile (· ≠ '?')
  some (name, if name.length < rest.length then some (rest.drop (name.length + 1)) else none)

/-- The file name that a preview URI shows. -/
def previewName? (uri scheme : Text) : Option Text := do
  let (name, _) ← previewParts? uri scheme
  let name := Text.trimEnd (· = '/') name
  if name = [] then none else some (decode name)

/-- The path that a preview URI carries: the first one in its query, unless that is empty. -/
def previewPath? (uri scheme : Text) : Option Text := do
  let (_, query) ← previewParts? uri scheme
  let path ← (Text.pieces (· = '&') (← query)).findSome? (Text.after? "path=")
  if path = [] then none else some (decode path)

end Uri

structure Addresses where
  facade : Text
  shadow : Text
  preview : Text
  deriving DecidableEq, Repr

/-- The URIs of the notebook at a path. -/
def Addresses.ofPath (path : Text) (settings : RelaySettings) : Addresses where
  facade := Uri.ofPath path
  shadow := Uri.ofPath (path ++ "." ++ settings.shadowExtension)
  preview := Uri.preview path settings.previewScheme

end Notebook

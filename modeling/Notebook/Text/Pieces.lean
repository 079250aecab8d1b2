import Notebook.Text.Lines
/-!
# Cutting texts apart

Paths, queries and host names are cut at single characters. A text without such a character is one
piece, so there is always at least one.
-/
namespace Notebook.Text

/-- The pieces of a text between the characters that separate. -/
def pieces (separates : Char → Bool) : Text → List Text
  | [] => [[]]
  | c :: rest =>
    if separates c then [] :: pieces separates rest
    else match pieces separates rest with
      | [] => [[c]]
      | piece :: more => (c :: piece) :: more

/-- Put a text in front of each of several texts. -/
def eachAfter (mark : Text) (texts : List Text) : Text := texts.flatMap (mark ++ ·)

def after? (beginning text : Text) : Option Text :=
  if beginning.isPrefixOf text then some (text.drop beginning.length) else none

/-- The text without the characters of a class at its end. -/
def trimEnd (drops : Char → Bool) (text : Text) : Text := (text.reverse.dropWhile drops).reverse

end Notebook.Text

import Notebook.Text.Lines
/-!
# White space

The characters with the Unicode property `White_Space`, and trimming of texts by them.
-/
namespace Notebook

/-- Has the Unicode property `White_Space`. -/
def isWhiteSpace (c : Char) : Bool :=
  let n := c.toNat
  (0x09 ≤ n && n ≤ 0x0D) || n == 0x20 || n == 0x85 || n == 0xA0 || n == 0x1680 ||
    (0x2000 ≤ n && n ≤ 0x200A) || n == 0x2028 || n == 0x2029 || n == 0x202F || n == 0x205F ||
    n == 0x3000

namespace Text

/-- Only white space, or empty. -/
def isBlank (text : Text) : Bool := text.all isWhiteSpace

/-- Drop leading elements that satisfy `drop`, then trailing ones. -/
def trimBy (drop : Char → Bool) (text : Text) : Text :=
  ((text.dropWhile drop).reverse.dropWhile drop).reverse

/-- Without leading and trailing white space. -/
def trim (text : Text) : Text := trimBy isWhiteSpace text

end Text

end Notebook

import Notebook.Text.Lines
/-!
# UTF-16 code units

Language servers count positions in UTF-16 code units: one unit up to U+FFFF, two above. An
offset that falls between the two units of one character stands for the position after it.
-/
namespace Notebook

def unitsOf (c : Char) : Nat := if c.toNat < 0x10000 then 1 else 2

namespace Text

def units : Text → Nat
  | [] => 0
  | c :: rest => unitsOf c + units rest

/-- Code units of the first `n` characters; past the end, of the whole text. -/
def unitOffset (text : Text) (n : Nat) : Nat := units (text.take n)

/-- The least number of characters that take up at least `u` code units, or the length of the
text when all of it takes up fewer. -/
def charOffset : Text → Nat → Nat
  | [], _ => 0
  | c :: rest, u => if u = 0 then 0 else 1 + charOffset rest (u - unitsOf c)

end Text

end Notebook

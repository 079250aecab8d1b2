import Notebook.Json.Value
import Notebook.Text.Units
/-!
# Points and ranges

A language server names a place by a line and by the UTF-16 code units before it in that line.
Both numbers are kept in 32 bits: of a larger number only the lowest 32 bits are seen.
-/
namespace Notebook.Lsp

def word (n : Nat) : Nat := n % 0x100000000

/-- A place in a document. Both numbers count from zero. -/
structure Point where
  line : Nat
  character : Nat
  deriving DecidableEq, Repr

namespace Point

/-- The place in a given line before which so many characters stand. -/
def ofColumn (text : Text) (line column : Nat) : Point :=
  ⟨word line, word (Text.unitOffset text column)⟩

def decode? (value : Json) : Option Point := do
  let line ← (← value.get? "line").asNat?
  let character ← (← value.get? "character").asNat?
  some ⟨word line, word character⟩

def encode (point : Point) : Json :=
  Json.object [("line", .nat point.line), ("character", .nat point.character)]

end Point

structure Range where
  start : Point
  /-- Where it ends; what stands there does not belong to it. -/
  stop : Point
  deriving DecidableEq, Repr

namespace Range

def decode? (value : Json) : Option Range := do
  let start ← Point.decode? (← value.get? "start")
  let stop ← Point.decode? (← value.get? "end")
  some ⟨start, stop⟩

def encode (range : Range) : Json :=
  Json.object [("start", range.start.encode), ("end", range.stop.encode)]

end Range

end Notebook.Lsp

import Notebook.Cell
import Notebook.Fault
/-!
# The list of cells

The cells of a notebook in order. Identities are handed out once and never again. Cells that were
removed are remembered for a while, so that a cell that comes back with the same kind and source
(by undo, say) comes back as itself.

`reconcile` replaces the list by blocks read from rendered text. A block takes over the first
unused cell that equals it, or the removed cell that equals it and was removed last. Blocks that
are left over take the cell at their own position if it is unused and of the same kind, and only
then a fresh cell.
-/
namespace Notebook

/-- Cells in order, with what is needed to keep their identities apart. -/
structure CellList where
  cells : List Cell := []
  /-- Every identity that was loaded or handed out. -/
  issued : List Text := []
  /-- Number from which the next fresh identity is sought. -/
  nextId : Nat := 0
  /-- Remembered removed cells, the one removed last first. -/
  removed : List Cell := []
  deriving DecidableEq, Repr

/-- How many removed cells are remembered. -/
def removedLimit : Nat := 256

/-- Hexadecimal text of a number, filled up to eight digits. -/
def hexId (n : Nat) : Text :=
  let digits := Nat.toDigits 16 n
  List.replicate (8 - digits.length) '0' ++ digits

namespace CellList

/-- The least number from `nextId` on whose identity was never issued. Among as many candidates
as there are issued identities, and one more, there is one. -/
def freshNumber (list : CellList) : Nat :=
  ((List.range' list.nextId (list.issued.length + 1)).find? fun n =>
    hexId n ∉ list.issued).getD list.nextId

def freshId (list : CellList) : Text × CellList :=
  let n := list.freshNumber
  (hexId n, { list with issued := hexId n :: list.issued, nextId := n + 1 })

/-- Append a loaded cell. An empty identity, or one that was seen before, is replaced. -/
def load (list : CellList) (cell : Cell) : CellList :=
  if cell.id = [] ∨ cell.id ∈ list.issued then
    let (id, list) := list.freshId
    { list with cells := list.cells ++ [{ cell with id }] }
  else { list with cells := list.cells ++ [cell], issued := cell.id :: list.issued }

def ofCells (cells : List Cell) : CellList := cells.foldl load {}

def length (list : CellList) : Nat := list.cells.length

def get? (list : CellList) (index : Nat) : Option Cell := list.cells[index]?

/-- Where the cell of that identity stands. -/
def indexOf? (list : CellList) (id : Text) : Option Nat :=
  list.cells.findIdx? fun cell => cell.id = id

def find? (list : CellList) (id : Text) : Option Cell :=
  list.cells.find? fun cell => cell.id = id

/-- What the rendered text shows of the cells. -/
def blocks (list : CellList) : List Block := list.cells.map Cell.block

def checkIndex (list : CellList) (index : Nat) : Except Fault Unit :=
  if index < list.length then .ok () else .error (.indexOutOfRange index list.length)

def modifyAt (list : CellList) (index : Nat) (change : Cell → Cell) : CellList :=
  { list with cells := list.cells.modify index change }

def modifyCell (list : CellList) (id : Text) (change : Cell → Cell) : CellList :=
  match list.indexOf? id with
  | some index => list.modifyAt index change
  | none => list

/-- Put a new cell at `index`, which may be the end. -/
def insert (list : CellList) (index : Nat) (kind : Kind) (source : Text) :
    Except Fault (Text × CellList) :=
  if list.length < index then .error (.indexOutOfRange index list.length)
  else
    let (id, list) := list.freshId
    .ok (id, { list with cells := list.cells.insertIdx index { id, kind, source } })

/-- Remember a removed cell, forgetting the oldest one beyond the limit. -/
def bury (list : CellList) (cell : Cell) : CellList :=
  { list with removed := (cell :: list.removed).take removedLimit }

def remove (list : CellList) (index : Nat) : Except Fault (Cell × CellList) :=
  match list.get? index with
  | none => .error (.indexOutOfRange index list.length)
  | some cell => .ok (cell, { list with cells := list.cells.eraseIdx index }.bury cell)

/-- Move a cell so that it ends up at `target`. -/
def move (list : CellList) (source target : Nat) : Except Fault CellList := do
  list.checkIndex source
  list.checkIndex target
  match list.get? source with
  | none => .error (.indexOutOfRange source list.length)
  | some cell =>
    .ok { list with cells := (list.cells.eraseIdx source).insertIdx target cell }

/-- A cell under another kind. Only code cells have outputs and an execution count. -/
def retyped (kind : Kind) (cell : Cell) : Cell :=
  if kind.isCode then { cell with kind }
  else { cell with kind, outputs := [], executionCount := none }

/-- Change the kind of the cell at an index. -/
def setKind (list : CellList) (index : Nat) (kind : Kind) : Except Fault CellList := do
  list.checkIndex index
  .ok (list.modifyAt index (retyped kind))

/-- Change the source of the cell at an index. Gives the former source. -/
def setSource (list : CellList) (index : Nat) (source : Text) :
    Except Fault (Text × CellList) :=
  match list.get? index with
  | none => .error (.indexOutOfRange index list.length)
  | some cell => .ok (cell.source, list.modifyAt index fun cell => { cell with source })

/-! ## Recovering identities -/

/-- A live cell and whether a block has taken it over. -/
structure Candidate where
  cell : Cell
  used : Bool
  deriving DecidableEq, Repr

/-- A block and the cell it took over, if any. -/
structure Slot where
  block : Block
  cell : Option Cell
  deriving DecidableEq, Repr

/-- Take over the first unused candidate that equals a block. -/
def claim (block : Block) : List Candidate → Option (Cell × List Candidate)
  | [] => none
  | candidate :: rest =>
    if !candidate.used ∧ candidate.cell.block = block then
      some (candidate.cell, { candidate with used := true } :: rest)
    else (claim block rest).map fun (cell, rest) => (cell, candidate :: rest)

/-- Take back the removed cell that equals a block and was removed last. -/
def revive (block : Block) (removed : List Cell) : Option Cell × List Cell :=
  (removed.find? fun cell => cell.block = block, removed.eraseP fun cell => cell.block = block)

/-- First pass: blocks take over equal cells, in order. -/
def matchEqual : List Block → List Candidate → List Cell →
    List Slot × List Candidate × List Cell
  | [], live, removed => ([], live, removed)
  | block :: blocks, live, removed =>
    match claim block live with
    | some (cell, live) =>
      let (slots, rest) := matchEqual blocks live removed
      (⟨block, some cell⟩ :: slots, rest)
    | none =>
      -- No live cell shows this any more, so one that was removed may come back.
      let (cell, removed) := revive block removed
      let (slots, rest) := matchEqual blocks live removed
      (⟨block, cell⟩ :: slots, rest)

/-- Second pass: a block that is left over takes over the cell at its own position, if that is
unused and of the same kind. -/
def matchPosition : List Slot → List Candidate → List Slot × List Candidate
  | slot :: slots, candidate :: live =>
    let (slots, live) := matchPosition slots live
    if slot.cell.isNone ∧ !candidate.used ∧ candidate.cell.kind = slot.block.kind then
      (⟨slot.block, some { candidate.cell with source := slot.block.source }⟩ :: slots,
        { candidate with used := true } :: live)
    else (slot :: slots, candidate :: live)
  | slots, live => (slots, live)

/-- Last pass: the cells of the slots, with fresh ones where no cell was taken over. -/
def fill (list : CellList) : List Slot → List Cell × CellList
  | [] => ([], list)
  | slot :: slots =>
    match slot.cell with
    | some cell =>
      let (cells, list) := fill list slots
      (cell :: cells, list)
    | none =>
      let (id, list) := list.freshId
      let (cells, list) := fill list slots
      ({ id, kind := slot.block.kind, source := slot.block.source } :: cells, list)

/-- Replace the cells by blocks that were read, recovering identities. Live cells that no block
took over are remembered as removed. -/
def reconcile (list : CellList) (blocks : List Block) : CellList :=
  let live := list.cells.map fun cell => ⟨cell, false⟩
  let (slots, live, removed) := matchEqual blocks live list.removed
  let (slots, live) := matchPosition slots live
  let (cells, list) := fill { list with removed } slots
  -- Buried in order, so the last of them is the first to come back.
  let unused := live.filter fun candidate => !candidate.used
  { (unused.map (·.cell)).foldl bury list with cells }

end CellList

end Notebook

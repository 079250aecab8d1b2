import Notebook.Cell
import Notebook.Fault
import Notebook.Json.Decode
import Notebook.Json.Write
/-!
# Stored notebooks

A stored notebook is a JSON object with a list of cells. What is not interpreted, in the document,
in its cells and in their outputs, is carried along, so that saving what was loaded loses nothing.
Text is written with one blank of indentation per level and a final line feed, known fields first
and the others after them in order of their names.
-/
namespace Notebook

inductive StoredSource where
  | whole (text : Text)
  /-- In pieces, to be put together as they are. -/
  | pieces (texts : List Text)
  deriving DecidableEq, Repr

structure StoredCell where
  /-- Identity; old files have none. -/
  id : Option Text
  type : Text
  metadata : Members
  source : StoredSource
  /-- Outputs; only code cells have them. -/
  outputs : Option (List Output)
  /-- Execution count, as it was found; only code cells have one. -/
  executionCount : Option Json
  /-- Other fields, sorted by name. -/
  extra : Members
  deriving DecidableEq, Repr

structure File where
  cells : List StoredCell := []
  metadata : Members := []
  format : Nat := 4
  formatMinor : Nat := 5
  /-- Other fields, sorted by name. -/
  extra : Members := []
  deriving DecidableEq, Repr

namespace StoredSource

def text : StoredSource → Text
  | whole text => text
  | pieces texts => texts.flatten

/-- The lines of a text with their line feeds. A final line feed opens no further line. -/
def splitKeeping : Text → List Text
  | [] => []
  | c :: rest =>
    if c = '\n' then [c] :: splitKeeping rest
    else match splitKeeping rest with
      | [] => [[c]]
      | line :: more => (c :: line) :: more

def ofText (text : Text) : StoredSource := pieces (splitKeeping text)

end StoredSource

/-! ## Reading -/

open Json.Tree

def Output.decode? : Json.Tree → Option Output
  | .obj members => do
    some {
      type := ← required? text? (← member? members "output_type")
      fields := ← others? ["output_type"] members }
  | _ => none

def StoredSource.decode? : Json.Tree → Option StoredSource
  | .str s => s.map whole
  | tree => (listOf? text? tree).map pieces

/-- Known fields of a stored cell, in the order in which they are written. -/
def StoredCell.fieldNames : List Text :=
  ["id", "cell_type", "metadata", "source", "outputs", "execution_count"]

def StoredCell.decode? : Json.Tree → Option StoredCell
  | .obj members => do
    some {
      id := ← optional? text? (← member? members "id")
      type := ← required? text? (← member? members "cell_type")
      metadata := ← withDefault? [] map? (← member? members "metadata")
      source := ← withDefault? (.pieces []) StoredSource.decode? (← member? members "source")
      outputs := ← optional? (listOf? Output.decode?) (← member? members "outputs")
      executionCount := ← optional? (value? Json.maxDepth) (← member? members "execution_count")
      extra := ← others? fieldNames members }
  | _ => none

/-- Known fields of a stored notebook, in the order in which they are written. -/
def File.fieldNames : List Text := ["cells", "metadata", "nbformat", "nbformat_minor"]

def File.decode? : Json.Tree → Option File
  | .obj members => do
    some {
      cells := ← required? (listOf? StoredCell.decode?) (← member? members "cells")
      metadata := ← withDefault? [] map? (← member? members "metadata")
      format := ← withDefault? 4 (natural? 32) (← member? members "nbformat")
      formatMinor := ← withDefault? 5 (natural? 32) (← member? members "nbformat_minor")
      extra := ← others? fieldNames members }
  | _ => none

/-- A document that decodes and, wherever one looks, holds readable values only. -/
def Json.Tree.strictly? {α : Type} (decode : Json.Tree → Option α) (tree : Json.Tree) :
    Option α := do
  let _ ← tree.value? Json.maxDepth
  decode tree

namespace File

/-- The first cell with a type that is not supported. -/
def checkTypes (index : Nat) : List StoredCell → Except FileFault Unit
  | [] => .ok ()
  | cell :: rest =>
    if (Kind.named? cell.type).isNone then .error (.unsupportedCellType index cell.type)
    else checkTypes (index + 1) rest

def ofText (text : Text) : Except FileFault File :=
  match (Json.readTree text).bind (strictly? decode?) with
  | none => .error .malformed
  | some file => do
    checkTypes 0 file.cells
    .ok file

/-- Kernel language named in the metadata. The language information goes before the kernel
specification even where its name is not a text. -/
def language? (file : File) : Option Text :=
  let named := (Members.get? file.metadata "language_info").bind fun info => info.get? "name"
  let specified :=
    (Members.get? file.metadata "kernelspec").bind fun spec => spec.get? "language"
  (named.or specified).bind Json.asText?

/-- A cell of the kind named by its type. Identities that are missing stay empty. -/
def loadCell (index : Nat) (stored : StoredCell) : Except FileFault Cell :=
  match Kind.named? stored.type with
  | none => .error (.unsupportedCellType index stored.type)
  | some kind => .ok {
      id := stored.id.getD []
      kind
      source := stored.source.text
      outputs := stored.outputs.getD []
      executionCount := stored.executionCount.bind Json.asNat?
      metadata := stored.metadata
      extra := stored.extra }

/-- Cells from `index` on. -/
def loadFrom (index : Nat) : List StoredCell → Except FileFault (List Cell)
  | [] => .ok []
  | stored :: rest => do
    let cell ← loadCell index stored
    .ok (cell :: (← loadFrom (index + 1) rest))

def load (file : File) : Except FileFault (List Cell) := loadFrom 0 file.cells

/-! ## Writing -/

/-- The stored form of a cell. Only code cells have outputs and an execution count. -/
def storeCell (cell : Cell) : StoredCell :=
  { id := some cell.id
    type := cell.kind.name
    metadata := cell.metadata
    source := StoredSource.ofText cell.source
    outputs := if cell.kind.isCode then some cell.outputs else none
    executionCount :=
      if cell.kind.isCode then some (Json.orNull (cell.executionCount.map Json.nat)) else none
    extra := cell.extra }

/-- The same document with other cells. -/
def withCells (file : File) (cells : List Cell) : File :=
  { file with cells := cells.map storeCell }

end File

/-- An output as a value, its type first. -/
def Output.encode (output : Output) : Json :=
  .obj (("output_type".toList, .str output.type) :: output.fields)

def StoredSource.encode : StoredSource → Json
  | whole text => .str text
  | pieces texts => .arr (texts.map .str)

/-- A field that is left out when there is nothing to say. -/
def optionalField (name : Text) (value : Option Json) : Members :=
  (value.map fun value => (name, value)).toList

def StoredCell.encode (cell : StoredCell) : Json :=
  .obj (optionalField "id" (cell.id.map .str) ++
    [("cell_type".toList, .str cell.type), ("metadata".toList, .obj cell.metadata),
      ("source".toList, cell.source.encode)] ++
    optionalField "outputs" (cell.outputs.map fun outputs => .arr (outputs.map Output.encode)) ++
    optionalField "execution_count" cell.executionCount ++
    cell.extra)

def File.encode (file : File) : Json :=
  .obj ([("cells".toList, .arr (file.cells.map StoredCell.encode)),
      ("metadata".toList, .obj file.metadata), ("nbformat".toList, .nat file.format),
      ("nbformat_minor".toList, .nat file.formatMinor)] ++
    file.extra)

def File.text (file : File) : Text := file.encode.indented 0 ++ ['\n']

end Notebook

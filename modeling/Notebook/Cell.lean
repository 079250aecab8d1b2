import Notebook.Json.Value
/-!
# Cells

A cell has an identity that survives re-reading of the rendered text, a kind, a source and what
the kernel reported about it. Everything else that a file says about a cell is carried along.
-/
namespace Notebook

inductive Kind where
  | code
  | markdown
  | raw
  deriving DecidableEq, Repr

namespace Kind

/-- Name of the kind in files and start markers. -/
def name : Kind → Text
  | code => "code"
  | markdown => "markdown"
  | raw => "raw"

def named? (name : Text) : Option Kind :=
  if name = "code" then some code
  else if name = "markdown" then some markdown
  else if name = "raw" then some raw
  else none

/-- Cells of this kind are executed and shown to language servers. -/
def isCode (kind : Kind) : Bool := kind = code

end Kind

inductive Progress where
  | idle
  /-- Submitted, not started. -/
  | queued
  | busy
  deriving DecidableEq, Repr

/-- An output of an execution. Only its type is interpreted; the other fields are kept. -/
structure Output where
  /-- One of `stream`, `execute_result`, `display_data`, `error`, or anything else. -/
  type : Text
  /-- The other fields, sorted by name. -/
  fields : Members
  deriving DecidableEq, Repr

namespace Output

/-- A text that is stored in one piece or in several. -/
def joinedText : Json → Text
  | .str s => s
  | .arr parts => (parts.filterMap Json.asText?).flatten
  | _ => []

/-- Lines of a text whose final line feed does not open another line. -/
def previewOf (text : Text) : List Text :=
  Text.lines (if text.getLast? = some '\n' then text.dropLast else text)

/-- Plain-text lines that stand for an output. Data without a text form is named by its first
type. -/
def preview (output : Output) : List Text :=
  if output.type = "stream" then
    match Members.get? output.fields "text" with
    | some text => previewOf (joinedText text)
    | none => []
  else if output.type = "execute_result" ∨ output.type = "display_data" then
    match (Members.get? output.fields "data").bind Json.asMembers? with
    | none => []
    | some data => match Members.get? data "text/plain" with
      | some text => previewOf (joinedText text)
      | none => (data.head?.map fun member => '<' :: member.1 ++ ">").toList
  else if output.type = "error" then
    let name := ((Members.get? output.fields "ename").bind Json.asText?).getD "Error"
    let value := ((Members.get? output.fields "evalue").bind Json.asText?).getD []
    [name ++ ": " ++ value]
  else []

end Output

/-- The part of a cell that the rendered text shows. -/
structure Block where
  kind : Kind
  source : Text
  deriving DecidableEq, Repr

structure Cell where
  id : Text
  kind : Kind
  source : Text
  outputs : List Output := []
  /-- Number of the last execution that was reported. -/
  executionCount : Option Nat := none
  /-- Progress of the execution; not saved. -/
  progress : Progress := .idle
  metadata : Members := []
  /-- Fields of the stored cell that nobody interprets. -/
  extra : Members := []
  deriving DecidableEq, Repr

namespace Cell

/-- What the rendered text shows of the cell. -/
def block (cell : Cell) : Block := ⟨cell.kind, cell.source⟩

/-- Number of content lines; an empty source is one empty line. -/
def lineCount (cell : Cell) : Nat := Text.lineCount cell.source

/-- Number of lines the cell takes up, both delimiters included. -/
def height (cell : Cell) : Nat := 2 + cell.lineCount

def lines (cell : Cell) : List Text := Text.lines cell.source

end Cell

end Notebook

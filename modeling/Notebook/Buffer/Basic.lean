import Notebook.Table
import Notebook.Buffer.History
/-!
# Text buffers

A buffer is a text with a revision, an optional undo history, anchors, and an optional record of
the splices made since somebody last asked. Anchors sit on offsets of line starts and move with
the text: a splice shifts the anchors behind it and drops those inside the removed span. Anchors
are named by the identities they were bound for.
-/
namespace Notebook

structure Buffer where
  text : Text
  /-- Number of splices so far, undo and redo included. -/
  revision : Nat := 0
  /-- Undo history, if it is kept. -/
  history : Option History := none
  anchors : Table Text Nat := []
  /-- Splices since they were last drained, oldest first, if they are recorded. -/
  pending : Option (List Splice) := none
  deriving DecidableEq, Repr

namespace Buffer

/-- A buffer without history that records nothing. -/
def ofText (text : Text) : Buffer := { text }

/-- Keep a history of at most `limit` steps. -/
def withHistory (buffer : Buffer) (limit : Nat) : Buffer :=
  { buffer with history := some (History.empty limit) }

/-- Start or stop recording splices. Recorded ones are dropped either way. -/
def track (buffer : Buffer) (on : Bool) : Buffer :=
  { buffer with pending := if on then some [] else none }

def isTracking (buffer : Buffer) : Bool := buffer.pending.isSome

/-- The recorded splices, oldest first. -/
def drained (buffer : Buffer) : List Splice := buffer.pending.getD []

/-- Forget the recorded splices and go on recording, if recording was on. -/
def drain (buffer : Buffer) : Buffer := { buffer with pending := buffer.pending.map fun _ => [] }

/-! ## Reading -/

/-- Number of lines; at least one. -/
def lineCount (buffer : Buffer) : Nat := Text.lineCount buffer.text

def lines (buffer : Buffer) : List Text := Text.lines buffer.text

def hasOpenGroup (buffer : Buffer) : Bool := buffer.history.any (·.openGroup.isSome)

def canUndo (buffer : Buffer) : Bool := buffer.history.any fun h => !h.undoable.isEmpty

def canRedo (buffer : Buffer) : Bool := buffer.history.any fun h => !h.redoable.isEmpty

/-- Number of steps that can be undone. -/
def undoDepth (buffer : Buffer) : Nat := (buffer.history.map (·.undoable.length)).getD 0

/-! ## Anchors -/

/-- Bind an anchor to the start of a line; past the end, of the last line. -/
def bindAnchor (buffer : Buffer) (id : Text) (line : Nat) : Buffer :=
  { buffer with
    anchors := Table.set buffer.anchors id
      (Text.lineStart buffer.text (min line (buffer.lineCount - 1))) }

/-- The line an anchor sits on, unless it was never bound or its line was deleted. -/
def anchorLine (buffer : Buffer) (id : Text) : Option Nat :=
  match Table.get? buffer.anchors id with
  | none => none
  | some offset =>
    if offset ≤ buffer.text.length then some (Text.lineOf buffer.text offset) else none

def clearAnchors (buffer : Buffer) : Buffer := { buffer with anchors := [] }

/-- Where an anchor goes when `start` up to `stop` is replaced by `inserted` characters: it stays
before the span, moves behind it, and is lost inside. -/
def shiftAnchor (start stop inserted offset : Nat) : Option Nat :=
  if stop ≤ offset then some (offset - (stop - start) + inserted)
  else if offset < start then some offset
  else none

def shiftAnchors (anchors : Table Text Nat) (start stop inserted : Nat) : Table Text Nat :=
  anchors.filterMap fun anchor =>
    (shiftAnchor start stop inserted anchor.2).map fun offset => (anchor.1, offset)

/-! ## Changing the text -/

/-- The splice that replaces `start` up to `stop`, both cut to the text, by `inserted`. -/
def spliceAt (buffer : Buffer) (start stop : Nat) (inserted : Text) : Splice :=
  let stop := min stop buffer.text.length
  let start := min start stop
  { start, removed := (buffer.text.take stop).drop start, inserted }

/-- Carry out a splice whose span lies within the text, without recording it for undo. -/
def apply (buffer : Buffer) (splice : Splice) : Buffer :=
  { buffer with
    text := buffer.text.take splice.start ++ splice.inserted ++ buffer.text.drop splice.stop
    revision := buffer.revision + 1
    anchors := shiftAnchors buffer.anchors splice.start splice.stop splice.inserted.length
    pending := buffer.pending.map (· ++ [splice]) }

/-- Replace the characters from `start` up to `stop` by `inserted`. -/
def replace (buffer : Buffer) (start stop : Nat) (inserted : Text) (grouping : Grouping) :
    Buffer :=
  let splice := buffer.spliceAt start stop inserted
  let changed := buffer.apply splice
  { changed with history := buffer.history.map (·.record splice grouping) }

/-- Replace the span between two positions, given in either order. -/
def replaceSpan (buffer : Buffer) (start stop : Position) (inserted : Text)
    (grouping : Grouping) : Buffer :=
  let a := Text.offsetAt buffer.text start
  let b := Text.offsetAt buffer.text stop
  buffer.replace (min a b) (max a b) inserted grouping

/-- Replace lines `start` up to `stop`, cut to the lines that exist, by `new`.

Lines with text after them take their line feeds along. At the tail of the text the line feed
before the span goes instead, and when everything goes the new lines are the whole text. -/
def replaceLines (buffer : Buffer) (start stop : Nat) (new : List Text) (grouping : Grouping) :
    Buffer :=
  let count := buffer.lineCount
  let stop := min stop count
  let start := min start stop
  if start = stop ∧ new = [] then buffer
  else if stop < count then
    buffer.replace (Text.lineStart buffer.text start) (Text.lineStart buffer.text stop)
      (new.flatMap fun line => line ++ ['\n']) grouping
  else if 0 < start then
    let first := if start = count then buffer.text.length
      else Text.lineStart buffer.text start - 1
    buffer.replace first buffer.text.length (new.flatMap fun line => '\n' :: line) grouping
  else
    buffer.replace 0 buffer.text.length (Text.unlines new) grouping

/-- Length of the longest common beginning of two lists of lines. -/
def commonPrefix : List Text → List Text → Nat
  | a :: as, b :: bs => if a = b then commonPrefix as bs + 1 else 0
  | _, _ => 0

/-- Make the lines equal to `new`, touching only the lines between the longest common beginning
and the longest common end of what remains. The flag tells whether anything was to be done. -/
def setLines (buffer : Buffer) (new : List Text) (grouping : Grouping) : Bool × Buffer :=
  let old := buffer.lines
  let front := commonPrefix old new
  -- Sought in what the common beginning leaves over, so that the two never overlap.
  let back := commonPrefix (old.drop front).reverse (new.drop front).reverse
  let oldStop := old.length - back
  let newStop := new.length - back
  if oldStop = front ∧ newStop = front then (false, buffer)
  else (true, buffer.replaceLines front oldStop ((new.take newStop).drop front) grouping)

/-- Make the whole text equal to `text`, line by line. -/
def setText (buffer : Buffer) (text : Text) (grouping : Grouping) : Bool × Buffer :=
  buffer.setLines (Text.lines text) grouping

/-! ## Undo and redo -/

def endGroup (buffer : Buffer) : Buffer :=
  { buffer with history := buffer.history.map History.endGroup }

def revert (buffer : Buffer) (splice : Splice) : Buffer :=
  buffer.apply
    (buffer.spliceAt splice.start (splice.start + splice.inserted.length) splice.removed)

def reapply (buffer : Buffer) (splice : Splice) : Buffer :=
  buffer.apply (buffer.spliceAt splice.start splice.stop splice.inserted)

/-- Take back the newest group. The flag tells whether there was one. -/
def undo (buffer : Buffer) : Bool × Buffer :=
  match buffer.history with
  | none => (false, buffer)
  | some history =>
    if history.undoable.isEmpty then
      (false, { buffer with history := some history.endGroup })
    else
      let steps := newestGroup history.undoable
      let reverted := steps.foldl (fun b step => b.revert step.splice) buffer
      (true, { reverted with history := some history.afterUndo })

/-- Make the group that was undone last again. The flag tells whether there was one. -/
def redo (buffer : Buffer) : Bool × Buffer :=
  match buffer.history with
  | none => (false, buffer)
  | some history =>
    if history.redoable.isEmpty then
      (false, { buffer with history := some history.endGroup })
    else
      let steps := newestGroup history.redoable
      let reapplied := steps.foldl (fun b step => b.reapply step.splice) buffer
      (true, { reapplied with history := some history.afterRedo })

end Buffer

end Notebook

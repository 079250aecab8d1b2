import Notebook.Lsp.Document
import Notebook.Proofs.Buffer.Splice
import Notebook.Proofs.Text.Lines
/-!
# Replicas and servers

A server that is told of changes holds a text and finds places by lines and UTF-16 code units. A
splice that fits the text becomes, by way of the replica, a change that makes the same of the text on
the server as the splice makes of the shadow, and the replica takes part in it: the places of a change
are those in the text just before it. This needs lines and columns that fit into 32 bits, and a text
none of whose lines ends in a carriage return, since a replica drops those.
-/
namespace Notebook

namespace Text

theorem units_append (front back : Text) : units (front ++ back) = units front + units back := by
  induction front with
  | nil => exact (Nat.zero_add _).symm
  | cons c rest ih => rw [List.cons_append, units, ih, units, Nat.add_assoc]

theorem unitsOf_pos (c : Char) : 0 < unitsOf c := by
  unfold unitsOf
  split <;> omega

theorem charOffset_le_length (text : Text) (u : Nat) : charOffset text u ≤ text.length := by
  induction text generalizing u with
  | nil => exact Nat.le_refl _
  | cons c rest ih =>
    rw [charOffset]
    split
    · exact Nat.zero_le _
    · rw [List.length_cons, Nat.add_comm]
      exact Nat.succ_le_succ (ih _)

/-- The place behind a beginning of a line is found again by its code units. -/
theorem charOffset_units (front back : Text) :
    charOffset (front ++ back) (units front) = front.length := by
  induction front with
  | nil => cases back <;> rfl
  | cons c rest ih =>
    have positive : units (c :: rest) ≠ 0 := by
      have := unitsOf_pos c
      rw [units]
      omega
    have less : units (c :: rest) - unitsOf c = units rest := by
      rw [units]
      omega
    rw [List.cons_append, charOffset, if_neg positive, less, ih, List.length_cons]
    omega

/-- The lines of the text, and the code units of each, can be counted in 32 bits. -/
def Addressable (text : Text) : Prop :=
  lineCount text ≤ 0x100000000 ∧ ∀ line ∈ lines text, units line < 0x100000000

instance (text : Text) : Decidable text.Addressable := inferInstanceAs (Decidable (_ ∧ _))

/-- Nothing in the text is taken for a part of a line break. -/
def Unreturned (text : Text) : Prop := '\r' ∉ text

instance (text : Text) : Decidable (Unreturned text) := inferInstanceAs (Decidable ('\r' ∉ text))

/-- No line of the text ends in a carriage return. -/
def PlainEnds (text : Text) : Prop := ∀ line ∈ lines text, line.getLast? ≠ some '\r'

instance (text : Text) : Decidable (PlainEnds text) :=
  inferInstanceAs (Decidable (∀ line ∈ lines text, line.getLast? ≠ some '\r'))

theorem Unreturned.plainEnds {text : Text} (unreturned : text.Unreturned) : text.PlainEnds :=
  fun _ part last => unreturned (mem_of_mem_lines part (List.mem_of_getLast? last))

end Text

namespace Lsp

open Text

/-! ## The server -/

def Server.offsetOf (text : Text) (point : Point) : Nat :=
  lineStart text point.line + charOffset ((line? text point.line).getD []) point.character

def Server.change? (text : Text) (change : Json) : Option Text := do
  let range ← Range.decode? (← change.get? "range")
  let inserted ← (← change.get? "text").asText?
  some (text.take (offsetOf text range.start) ++ inserted ++
    text.drop (offsetOf text range.stop))

/-- To a server that holds a text, a change means what a splice does: from where to where characters go,
and what comes instead. -/
structure TextChange.Means (change : TextChange) (text : Text) (splice : Splice) : Prop where
  start : Server.offsetOf text change.range.start = splice.start
  stop : Server.offsetOf text change.range.stop = splice.stop
  inserted : change.text = splice.inserted

/-- The text after a notification of changes, which are made in their order. -/
def Server.receive? (text : Text) (notification : Notification) : Option Text := do
  let changes ← (← notification.params.get? "contentChanges").asItems?
  changes.foldlM change? text

/-- The text that a notification of a new document carries. -/
def Server.open? (notification : Notification) : Option Text := do
  (← (← notification.params.get? "textDocument").get? "text").asText?

/-- The version of the document that a notification carries. -/
def Server.version? (notification : Notification) : Option Nat := do
  (← (← notification.params.get? "textDocument").get? "version").asNat?

/-- The text that a server holds that was sent these notifications, oldest first. -/
def Server.text? : List Notification → Option Text
  | [] => none
  | opening :: changes => do changes.foldlM receive? (← open? opening)

/-! ## JSON forms of changes -/

theorem Server.change?_encode (text : Text) (change : TextChange) :
    change? text change.encode = some (text.take (offsetOf text
        ⟨word change.range.start.line, word change.range.start.character⟩) ++ change.text ++
      text.drop (offsetOf text
        ⟨word change.range.stop.line, word change.range.stop.character⟩)) := rfl

/-! ## Places -/

namespace Replica

theorem withoutReturn_eq_iff {line : Text} :
    withoutReturn line = line ↔ line.getLast? ≠ some '\r' := by
  rw [withoutReturn]
  split
  next last =>
    refine ⟨fun same => ?_, fun other => absurd last other⟩
    have shorter := congrArg List.length same
    have some : 0 < line.length := List.length_pos_of_mem (List.mem_of_getLast? last)
    rw [List.length_dropLast] at shorter
    omega
  next other => exact ⟨fun _ => other, fun _ => rfl⟩

theorem map_withoutReturn_eq_iff {part : List Text} :
    part.map withoutReturn = part ↔ ∀ line ∈ part, line.getLast? ≠ some '\r' := by
  have fixed := List.map_inj_left (l := part) (f := withoutReturn) (g := id)
  rw [List.map_id] at fixed
  exact fixed.trans (forall₂_congr fun _ _ => withoutReturn_eq_iff)

/-- A replica drops nothing if no line ends in a carriage return. -/
theorem linesOf_eq_iff {text : Text} : linesOf text = Text.lines text ↔ text.PlainEnds :=
  map_withoutReturn_eq_iff

theorem ofText_eq {text : Text} (plain : text.PlainEnds) : ofText text = ⟨Text.lines text⟩ :=
  congrArg Replica.mk (linesOf_eq_iff.mpr plain)

theorem linesOf_eq {text : Text} (unreturned : text.Unreturned) : linesOf text = Text.lines text :=
  linesOf_eq_iff.mpr unreturned.plainEnds

/-- The lines of a text of which some lines stand above and below a part. -/
theorem linesOf_enclosed {above below : List Text} (areAbove : ∀ line ∈ above, IsLine line)
    (areBelow : ∀ line ∈ below, IsLine line) (middle : Text) :
    linesOf (terminated above ++ (middle ++ preceded below)) =
      above.map withoutReturn ++ linesOf middle ++ below.map withoutReturn := by
  rw [linesOf, lines_terminated areAbove, lines_preceded areBelow, List.map_append, List.map_append,
    List.append_assoc, linesOf]

/-- The place of an offset in lines, from the lines above it and the part of a line before it. -/
theorem placeIn_eq (line : Nat) (above : List Text) (last first : Text) (below : List Text) :
    placeIn line (above ++ (last ++ first) :: below) ((terminated above).length + last.length) =
      ⟨line + above.length, last.length⟩ := by
  induction above generalizing line with
  | nil =>
    cases below with
    | nil => simp [placeIn]
    | cons next rest => simp [placeIn]
  | cons top rest ih =>
    obtain ⟨next, more, split⟩ : ∃ next more, rest ++ (last ++ first) :: below = next :: more :=
      List.exists_cons_of_ne_nil (by simp)
    have length : (terminated (top :: rest)).length + last.length - (top.length + 1) =
        (terminated rest).length + last.length := by
      simp only [terminated_cons, List.length_append, List.length_cons]
      omega
    have beyond : ¬(terminated (top :: rest)).length + last.length ≤ top.length := by
      simp only [terminated_cons, List.length_append, List.length_cons]
      omega
    rw [List.cons_append, split, placeIn, if_neg beyond, length, ← split, ih, List.length_cons]
    · congr 1
      omega
    · exact List.cons_ne_nil next more

/-- A place of a text in which a change begins or ends. -/
structure Placed (text : Text) (offset : Nat) (above : List Text) (last first : Text)
    (below : List Text) : Prop where
  before : text.take offset = terminated above ++ last
  behind : text.drop offset = first ++ preceded below
  lines : Text.lines text = above ++ (last ++ first) :: below

section Place

variable {text : Text} {offset : Nat} {above below : List Text} {last first : Text}

theorem Placed.offset_eq (placed : Placed text offset above last first below)
    (within : offset ≤ text.length) : (terminated above).length + last.length = offset := by
  rw [← List.length_append, ← placed.before, List.length_take, Nat.min_eq_left within]

/-- The line of a place, read off the lines. -/
theorem Placed.line (placed : Placed text offset above last first below) :
    (Text.lines text)[above.length]? = some (last ++ first) := by
  rw [placed.lines, List.getElem?_append_right (Nat.le_refl _), Nat.sub_self,
    List.getElem?_cons_zero]

theorem Placed.placeOf (placed : Placed text offset above last first below)
    (within : offset ≤ text.length) :
    Replica.placeOf ⟨Text.lines text⟩ offset = ⟨above.length, last.length⟩ := by
  rw [Replica.placeOf, placed.lines, ← placed.offset_eq within, placeIn_eq, Nat.zero_add]

/-- The numbers of a place fit if those of the text do. -/
theorem Placed.fits (placed : Placed text offset above last first below)
    (addressable : text.Addressable) :
    word above.length = above.length ∧ word (units last) = units last := by
  constructor
  · have count := addressable.1
    rw [← length_lines, placed.lines, List.length_append, List.length_cons] at count
    exact Nat.mod_eq_of_lt (by omega)
  · have all := addressable.2 (last ++ first) (by rw [placed.lines]; simp)
    rw [units_append] at all
    exact Nat.mod_eq_of_lt (by omega)

/-- The point of a place, if the numbers fit. -/
theorem Placed.pointAt (placed : Placed text offset above last first below)
    (addressable : text.Addressable) :
    Replica.pointAt ⟨Text.lines text⟩ ⟨above.length, last.length⟩ =
      ⟨above.length, units last⟩ := by
  obtain ⟨line, column⟩ := placed.fits addressable
  have here : Replica.lineAt ⟨Text.lines text⟩ above.length = last ++ first := by
    rw [lineAt, placed.line, Option.getD_some]
  rw [Replica.pointAt, here, Point.ofColumn, unitOffset, List.take_left, line, column]

/-- The server finds the place of a point. -/
theorem Placed.offsetOf (placed : Placed text offset above last first below)
    (within : offset ≤ text.length) :
    Server.offsetOf text ⟨above.length, units last⟩ = offset := by
  have below : above.length < lineCount text := by
    rw [← length_lines, placed.lines, List.length_append, List.length_cons]
    omega
  rw [Server.offsetOf, line?, placed.line, Option.getD_some, charOffset_units, lineStart_eq below,
    placed.lines, List.take_left, placed.offset_eq within]

end Place

/-! ## Changes -/

section Change

variable {text : Text} {splice : Splice} {above below above' below' : List Text}
  {last first last' first' : Text}

theorem changeOf_placed (start : Placed text splice.start above last first below)
    (stop : Placed text splice.stop above' last' first' below') (addressable : text.Addressable)
    (fits : splice.Fits text) :
    Replica.changeOf ⟨Text.lines text⟩ splice =
      ⟨⟨⟨above.length, units last⟩, ⟨above'.length, units last'⟩⟩, splice.inserted⟩ := by
  have within : splice.start ≤ text.length := Nat.le_trans (Nat.le_add_right ..) fits.stop_le
  simp only [Replica.changeOf, Replica.changeBetween, start.placeOf within,
    stop.placeOf fits.stop_le, start.pointAt addressable, stop.pointAt addressable]

/-- Between the lines above it and those below, a change takes one text apart into lines anew. -/
theorem apply_placed (start : Placed text splice.start above last first below)
    (stop : Placed text splice.stop above' last' first' below') (plain : text.PlainEnds) :
    Replica.apply ⟨Text.lines text⟩
        ⟨⟨⟨above.length, units last⟩, ⟨above'.length, units last'⟩⟩, splice.inserted⟩ =
      ofText (splice.applyTo text) := by
  have isAbove : ∀ line ∈ above, line ∈ Text.lines text := fun line member => by
    rw [start.lines]
    exact List.mem_append_left _ member
  have isBelow : ∀ line ∈ below', line ∈ Text.lines text := fun line member => by
    rw [stop.lines]
    exact List.mem_append_right _ (List.mem_cons_of_mem _ member)
  have keptAbove : above.map withoutReturn = above :=
    map_withoutReturn_eq_iff.mpr fun line member => plain line (isAbove line member)
  have keptBelow : below'.map withoutReturn = below' :=
    map_withoutReturn_eq_iff.mpr fun line member => plain line (isBelow line member)
  have after : splice.applyTo text =
      terminated above ++ (last ++ splice.inserted ++ first' ++ preceded below') := by
    rw [Splice.applyTo, start.before, stop.behind]
    simp only [List.append_assoc]
  have count : max above.length above'.length + 1 ≤ (Text.lines text).length := by
    have one := congrArg List.length start.lines
    have other := congrArg List.length stop.lines
    rw [List.length_append, List.length_cons] at one other
    omega
  -- The change lies within the lines, so none has to be added.
  have enough : padded (Text.lines text) (max above.length above'.length + 1) = Text.lines text := by
    rw [padded, Nat.sub_eq_zero_of_le count, List.replicate_zero, List.append_nil]
  have line : Replica.lineAt ⟨Text.lines text⟩ above.length = last ++ first := by
    rw [lineAt, start.line, Option.getD_some]
  have line' : Replica.lineAt ⟨Text.lines text⟩ above'.length = last' ++ first' := by
    rw [lineAt, stop.line, Option.getD_some]
  have front : (Text.lines text).take above.length = above := by
    rw [start.lines, List.take_left]
  have back : (Text.lines text).drop (above'.length + 1) = below' := by
    rw [stop.lines, List.append_cons]
    exact List.drop_left' (by simp)
  simp only [Replica.apply, enough, line, line', charOffset_units, List.take_left, List.drop_left,
    front, back]
  rw [ofText, after, linesOf_enclosed (fun line member => isLine_of_mem_lines (isAbove line member))
    (fun line member => isLine_of_mem_lines (isBelow line member)), keptAbove, keptBelow]

/-- The change that the replica makes of a splice means the same to the server, which makes the same of
the text. The replica makes it of its lines. -/
theorem apply_changeOf (fits : splice.Fits text) (addressable : text.Addressable)
    (plain : text.PlainEnds) :
    let change := Replica.changeOf (ofText text) splice
    change.Means text splice ∧ Server.change? text change.encode = some (splice.applyTo text) ∧
      Replica.apply (ofText text) change = ofText (splice.applyTo text) := by
  intro change
  obtain ⟨above, last, first, below, before, behind, lines⟩ := exists_place text splice.start
  have start : Placed text splice.start above last first below := ⟨before, behind, lines⟩
  obtain ⟨above', last', first', below', before', behind', lines'⟩ := exists_place text splice.stop
  have stop : Placed text splice.stop above' last' first' below' := ⟨before', behind', lines'⟩
  have known : change =
      ⟨⟨⟨above.length, units last⟩, ⟨above'.length, units last'⟩⟩, splice.inserted⟩ := by
    rw [← changeOf_placed start stop addressable fits, ← ofText_eq plain]
  have first := start.offsetOf (Nat.le_trans (Nat.le_add_right ..) fits.stop_le)
  have second := stop.offsetOf fits.stop_le
  refine ⟨?_, ?_, ?_⟩
  · rw [known]
    exact ⟨first, second, rfl⟩
  · obtain ⟨line, column⟩ := start.fits addressable
    obtain ⟨line', column'⟩ := stop.fits addressable
    rw [Server.change?_encode, known, line, column, line', column', first, second,
      List.append_assoc]
    rfl
  · rw [known, ofText_eq plain, apply_placed start stop plain]

end Change

/-- A replica that follows splices in two batches tells what it tells of all of them. -/
theorem follow_append (replica : Replica) (first second : List Splice) :
    replica.follow (first ++ second) =
      ((replica.follow first).1 ++ ((replica.follow first).2.follow second).1,
        ((replica.follow first).2.follow second).2) := by
  induction first generalizing replica with
  | nil => rfl
  | cons splice rest ih => simp only [List.cons_append, follow, ih]

/-- A replica and a server that follow splices come to the text that these lead to, as long as no line
ends in a carriage return before the last of them. -/
theorem follow_leads {text last : Text} {splices : List Splice}
    (leads : Splice.Leads text splices last)
    (addressable : ∀ k < splices.length,
      ((splices.take k).foldl (fun text splice => splice.applyTo text) text).Addressable)
    (plain : ∀ k < splices.length,
      ((splices.take k).foldl (fun text splice => splice.applyTo text) text).PlainEnds) :
    (Replica.follow (ofText text) splices).2 = ofText last ∧
      ((Replica.follow (ofText text) splices).1.map TextChange.encode).foldlM Server.change? text =
        some last := by
  induction leads with
  | done => exact ⟨rfl, rfl⟩
  | @step text last splice rest fits _ ih =>
    obtain ⟨-, made, moved⟩ :=
      apply_changeOf fits (addressable 0 (Nat.succ_pos _)) (plain 0 (Nat.succ_pos _))
    -- The replica made the change itself, so the others meet the text that it led to.
    obtain ⟨lines, received⟩ := ih (fun k bound => addressable (k + 1) (Nat.succ_lt_succ bound))
      fun k bound => plain (k + 1) (Nat.succ_lt_succ bound)
    simp only [Replica.follow, moved]
    refine ⟨lines, ?_⟩
    rw [List.map_cons, List.foldlM_cons, made]
    exact received

end Replica

end Lsp

end Notebook

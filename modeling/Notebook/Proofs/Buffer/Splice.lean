import Notebook.Buffer.Basic
import Notebook.Proofs.Text.Lines
/-!
# Splices lead from text to text

A splice fits a text when the text holds, at its place, exactly what the splice removes. Fitting
splices can be replayed in order and taken back in the opposite order. Every change of a buffer is
a row of fitting splices, and a buffer that records its splices records this row. Undo and redo are rows
of splices in two directions of the history.
-/
namespace Notebook

namespace Splice

/-- The text holds what the splice removes. -/
def Fits (splice : Splice) (text : Text) : Prop :=
  ∃ front back, text = front ++ (splice.removed ++ back) ∧ front.length = splice.start

def applyTo (splice : Splice) (text : Text) : Text :=
  text.take splice.start ++ (splice.inserted ++ text.drop splice.stop)

/-- The splice that takes a splice back. -/
def inverse (splice : Splice) : Splice := ⟨splice.start, splice.inserted, splice.removed⟩

theorem applyTo_append (splice : Splice) {front : Text} (back : Text)
    (place : front.length = splice.start) :
    splice.applyTo (front ++ (splice.removed ++ back)) = front ++ (splice.inserted ++ back) := by
  have stop : splice.stop = (front ++ splice.removed).length := by
    rw [Splice.stop, List.length_append, place]
  rw [applyTo, stop, ← place, List.take_left, ← List.append_assoc front splice.removed,
    List.drop_left]

theorem Fits.inverse {splice : Splice} {text : Text} (fits : splice.Fits text) :
    splice.inverse.Fits (splice.applyTo text) := by
  obtain ⟨front, back, rfl, place⟩ := fits
  exact ⟨front, back, applyTo_append splice back place, place⟩

theorem Fits.applyTo_inverse {splice : Splice} {text : Text} (fits : splice.Fits text) :
    splice.inverse.applyTo (splice.applyTo text) = text := by
  obtain ⟨front, back, rfl, place⟩ := fits
  rw [applyTo_append splice back place]
  exact applyTo_append splice.inverse back place

theorem Fits.stop_le {splice : Splice} {text : Text} (fits : splice.Fits text) :
    splice.stop ≤ text.length := by
  obtain ⟨front, back, rfl, place⟩ := fits
  rw [Splice.stop, List.length_append, List.length_append]
  omega

/-- A splice that fits removes what the text holds from its start to its stop. -/
theorem Fits.slice_eq {splice : Splice} {text : Text} (fits : splice.Fits text) :
    (text.take splice.stop).drop splice.start = splice.removed := by
  obtain ⟨front, back, rfl, place⟩ := fits
  have stop : splice.stop = (front ++ splice.removed).length := by
    rw [Splice.stop, List.length_append, place]
  rw [stop, ← List.append_assoc, List.take_left, ← place, List.drop_left]

/-- Splices that fit one after the other lead from one text to another. -/
inductive Leads : Text → List Splice → Text → Prop
  | done (text : Text) : Leads text [] text
  | step {text last : Text} {splice : Splice} {rest : List Splice} : splice.Fits text →
      Leads (splice.applyTo text) rest last → Leads text (splice :: rest) last

theorem Leads.single {splice : Splice} {text : Text} (fits : splice.Fits text) :
    Leads text [splice] (splice.applyTo text) :=
  .step fits (.done _)

theorem Leads.append {a b c : Text} {first second : List Splice} (there : Leads a first b)
    (onward : Leads b second c) : Leads a (first ++ second) c := by
  induction there with
  | done => exact onward
  | step fits _ ih => exact .step fits (ih onward)

/-- The last text is the one that the splices make of the first. -/
theorem Leads.foldl_eq {a b : Text} {splices : List Splice} (leads : Leads a splices b) :
    splices.foldl (fun text splice => splice.applyTo text) a = b := by
  induction leads with
  | done => rfl
  | step _ _ ih => exact ih

/-- What was done in order is taken back in the opposite order. -/
theorem Leads.reverse {a b : Text} {splices : List Splice} (leads : Leads a splices b) :
    Leads b (splices.reverse.map inverse) a := by
  induction leads with
  | done text => exact .done text
  | @step text last splice rest fits _ ih =>
    rw [List.reverse_cons, List.map_append]
    -- The last splice is taken back first, which leads back to where it was made.
    refine ih.append (.step fits.inverse ?_)
    rw [fits.applyTo_inverse]
    exact .done text

end Splice

namespace Buffer

open Splice

/-- One buffer became another by splices, which were recorded if splices are recorded at all. -/
structure Spliced (before after : Buffer) (splices : List Splice) : Prop where
  leads : Leads before.text splices after.text
  revision : after.revision = before.revision + splices.length
  pending : after.pending = before.pending.map (· ++ splices)

theorem Spliced.refl (buffer : Buffer) : Spliced buffer buffer [] where
  leads := .done _
  revision := rfl
  pending := by simp

theorem Spliced.trans {a b c : Buffer} {first second : List Splice} (there : Spliced a b first)
    (onward : Spliced b c second) : Spliced a c (first ++ second) where
  leads := there.leads.append onward.leads
  revision := by rw [onward.revision, there.revision, List.length_append]; omega
  pending := by
    rw [onward.pending, there.pending, Option.map_map]
    congr 1
    funext recorded
    exact List.append_assoc ..

/-- The splice of a replacement fits, since it is cut to the text. -/
theorem spliceAt_fits (buffer : Buffer) (start stop : Nat) (inserted : Text) :
    (buffer.spliceAt start stop inserted).Fits buffer.text := by
  let last := min stop buffer.text.length
  let first := min start last
  refine ⟨buffer.text.take first, buffer.text.drop last, ?_, ?_⟩
  · change buffer.text =
      buffer.text.take first ++ ((buffer.text.take last).drop first ++ buffer.text.drop last)
    have front : buffer.text.take first = (buffer.text.take last).take first := by
      rw [List.take_take, Nat.min_eq_left (Nat.min_le_right start last)]
    rw [← List.append_assoc, front, List.take_append_drop, List.take_append_drop]
  · change (buffer.text.take first).length = first
    rw [List.length_take]
    omega

theorem spliced_apply {buffer : Buffer} {splice : Splice} (fits : splice.Fits buffer.text) :
    Spliced buffer (buffer.apply splice) [splice] where
  leads := by
    simpa [apply, applyTo] using Leads.single fits
  revision := rfl
  pending := rfl

theorem spliced_replace (buffer : Buffer) (start stop : Nat) (inserted : Text)
    (grouping : Grouping) : Spliced buffer (buffer.replace start stop inserted grouping)
      [buffer.spliceAt start stop inserted] :=
  have applied := spliced_apply (buffer.spliceAt_fits start stop inserted)
  ⟨applied.leads, applied.revision, applied.pending⟩

/-- A replacement of a span that lies within the text is carried out as it is asked for. -/
theorem apply_spliceAt (buffer : Buffer) {start stop : Nat} (inOrder : start ≤ stop)
    (within : stop ≤ buffer.text.length) (inserted : Text) :
    (buffer.apply (buffer.spliceAt start stop inserted)).text =
        buffer.text.take start ++ (inserted ++ buffer.text.drop stop) ∧
      (buffer.apply (buffer.spliceAt start stop inserted)).anchors =
        shiftAnchors buffer.anchors start stop inserted.length := by
  have length : start + ((buffer.text.take stop).drop start).length = stop := by
    rw [List.length_drop, List.length_take]
    omega
  simp only [apply, spliceAt, Nat.min_eq_left within, Nat.min_eq_left inOrder, Splice.stop, length,
    List.append_assoc, and_self]

theorem text_replace (buffer : Buffer) {start stop : Nat} (inOrder : start ≤ stop)
    (within : stop ≤ buffer.text.length) (inserted : Text) (grouping : Grouping) :
    (buffer.replace start stop inserted grouping).text =
      buffer.text.take start ++ (inserted ++ buffer.text.drop stop) :=
  (buffer.apply_spliceAt inOrder within inserted).1

theorem anchors_replace (buffer : Buffer) {start stop : Nat} (inOrder : start ≤ stop)
    (within : stop ≤ buffer.text.length) (inserted : Text) (grouping : Grouping) :
    (buffer.replace start stop inserted grouping).anchors =
      shiftAnchors buffer.anchors start stop inserted.length :=
  (buffer.apply_spliceAt inOrder within inserted).2

/-- Writing lines is one replacement, or none. What it inserts comes from the lines. -/
theorem replaceLines_cases (buffer : Buffer) (start stop : Nat) (new : List Text)
    (grouping : Grouping) : buffer.replaceLines start stop new grouping = buffer ∨
      ∃ first last inserted,
        buffer.replaceLines start stop new grouping =
          buffer.replace first last inserted grouping ∧
        ∀ c ∈ inserted, c = '\n' ∨ ∃ line ∈ new, c ∈ line := by
  unfold replaceLines
  dsimp only
  split
  · exact .inl rfl
  · right
    split
    · exact ⟨_, _, _, rfl, by grind⟩
    · split
      · exact ⟨_, _, _, rfl, by grind⟩
      · exact ⟨_, _, _, rfl, fun _ => Text.mem_unlines⟩

theorem setLines_cases (buffer : Buffer) (new : List Text) (grouping : Grouping) :
    (buffer.setLines new grouping).2 = buffer ∨
      ∃ first last inserted,
        (buffer.setLines new grouping).2 = buffer.replace first last inserted grouping ∧
        ∀ c ∈ inserted, c = '\n' ∨ ∃ line ∈ new, c ∈ line := by
  unfold setLines
  dsimp only
  split
  · exact .inl rfl
  · rcases buffer.replaceLines_cases _ _ _ grouping with same | ⟨first, last, inserted, eq, known⟩
    · exact .inl same
    · refine .inr ⟨first, last, inserted, eq, fun c member => ?_⟩
      rcases known c member with newline | ⟨line, part, member⟩
      · exact .inl newline
      · exact .inr ⟨line, List.mem_of_mem_take (List.mem_of_mem_drop part), member⟩

/-- What holds of a buffer, and after any replacement in it, holds after lines were written. -/
theorem replaceLines_keeps (holds : Buffer → Prop) {buffer : Buffer} {grouping : Grouping}
    (idle : holds buffer)
    (replaced : ∀ first last inserted, holds (buffer.replace first last inserted grouping))
    (start stop : Nat) (new : List Text) : holds (buffer.replaceLines start stop new grouping) := by
  rcases buffer.replaceLines_cases start stop new grouping with same | ⟨first, last, inserted, eq, -⟩
  · rwa [same]
  · rw [eq]
    exact replaced first last inserted

theorem setLines_keeps (holds : Buffer → Prop) {buffer : Buffer} {grouping : Grouping}
    (idle : holds buffer)
    (replaced : ∀ first last inserted, holds (buffer.replace first last inserted grouping))
    (new : List Text) : holds (buffer.setLines new grouping).2 := by
  rcases buffer.setLines_cases new grouping with same | ⟨first, last, inserted, eq, -⟩
  · rwa [same]
  · rw [eq]
    exact replaced first last inserted

/-! ## Through the history -/

/-- Undo goes back through the history, and redo goes forth. -/
inductive Direction where
  | back
  | forth

namespace Direction

def travel : Direction → Buffer → Bool × Buffer
  | back => undo
  | forth => redo

def stack : Direction → History → List Step
  | back => History.undoable
  | forth => History.redoable

def go : Direction → Buffer → Splice → Buffer
  | back => revert
  | forth => reapply

def passed : Direction → History → History
  | back => History.afterUndo
  | forth => History.afterRedo

/-- The steps that lie ahead, the next one first. -/
def ahead (direction : Direction) (buffer : Buffer) : List Step :=
  (buffer.history.map direction.stack).getD []

theorem travel_eq (direction : Direction) (buffer : Buffer) :
    direction.travel buffer = match buffer.history with
      | none => (false, buffer)
      | some history =>
        if (direction.stack history).isEmpty then
          (false, { buffer with history := some history.endGroup })
        else
          let gone := (newestGroup (direction.stack history)).foldl
            (fun b step => direction.go b step.splice) buffer
          (true, { gone with history := some (direction.passed history) }) := by
  cases direction <;> rfl

/-- The newest group of the steps ahead is gone through, and only the history changes besides. -/
theorem travel_gone (direction : Direction) (buffer : Buffer) :
    (direction.travel buffer).1 = !(direction.ahead buffer).isEmpty ∧
      ∃ history, (direction.travel buffer).2 = { (newestGroup (direction.ahead buffer)).foldl
        (fun b step => direction.go b step.splice) buffer with history } := by
  rw [travel_eq, ahead]
  cases known : buffer.history with
  | none => exact ⟨rfl, buffer.history, rfl⟩
  | some history =>
    dsimp only [Option.map_some, Option.getD_some]
    split
    next empty =>
      rw [List.isEmpty_iff] at empty
      rw [empty]
      exact ⟨rfl, _, rfl⟩
    next busy => exact ⟨by simpa using busy, _, rfl⟩

theorem text_travel (direction : Direction) (buffer : Buffer) : (direction.travel buffer).2.text =
    ((newestGroup (direction.ahead buffer)).foldl (fun b step => direction.go b step.splice)
      buffer).text := by
  obtain ⟨-, history, gone⟩ := direction.travel_gone buffer
  rw [gone]

/-- Steps are gone through in a text, whatever else there is of the buffer. -/
theorem text_foldl (direction : Direction) {before after : Buffer} (same : after.text = before.text)
    (row : List Step) : (row.foldl (fun b step => direction.go b step.splice) after).text =
      (row.foldl (fun b step => direction.go b step.splice) before).text := by
  induction row generalizing before after with
  | nil => exact same
  | cons step rest ih =>
    apply ih
    cases direction with
    | back => simp only [go, revert, apply, spliceAt, same]
    | forth => simp only [go, reapply, apply, spliceAt, same]

/-- What every splice keeps and no history tells is kept in both directions. -/
theorem travel_keeps {holds : Buffer → Prop} (direction : Direction) {buffer : Buffer}
    (start : holds buffer)
    (beside : ∀ {after : Buffer} (history : Option History), holds after → holds { after with history })
    (one : ∀ {after : Buffer} {splice : Splice}, splice.Fits after.text → holds after →
      holds (after.apply splice)) : holds (direction.travel buffer).2 := by
  have go {after : Buffer} (row : List Step) (so : holds after) :
      holds (row.foldl (fun b step => direction.go b step.splice) after) := by
    induction row generalizing after with
    | nil => exact so
    | cons step rest ih =>
      apply ih
      -- Either way a splice is cut to the text, so it fits.
      cases direction
      all_goals exact one (after.spliceAt_fits ..) so
  obtain ⟨-, history, gone⟩ := direction.travel_gone buffer
  rw [gone]
  exact beside history (go _ start)

end Direction

end Buffer

end Notebook

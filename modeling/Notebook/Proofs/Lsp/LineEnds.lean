import Notebook.Proofs.Buffer.Record
import Notebook.Proofs.Lsp.Replica
/-!
# Carriage returns at the ends of lines

To a buffer a carriage return is a character like others, and splices count it. A replica drops it where
it ends a line. As long as no line of the text ends in one, a replica that follows what the buffer
records, in whatever batches, holds the text of the buffer, and the change that it makes of the next
splice names the characters that the splice replaces. The first text with such a line it holds without
its carriage returns, and from then on splices are counted in a text that it does not hold.
-/
namespace Notebook

namespace Lsp

open Text Splice

namespace Replica

variable {text : Text} {edits told : List Splice}

/-- Follow splices batch after batch. -/
def followAll (replica : Replica) (batches : List (List Splice)) : Replica :=
  batches.foldl (fun replica batch => (replica.follow batch).2) replica

/-- It makes no difference to the replica into which batches the splices are split. -/
theorem followAll_eq (replica : Replica) (batches : List (List Splice)) :
    replica.followAll batches = (replica.follow batches.flatten).2 := by
  induction batches generalizing replica with
  | nil => rfl
  | cons batch rest ih => rw [List.flatten_cons, follow_append, ← ih]; rfl

theorem isLine_withoutReturn {line : Text} (isLine : IsLine line) : IsLine (withoutReturn line) := by
  rw [withoutReturn]
  split
  · exact fun member => isLine (List.mem_of_mem_dropLast member)
  · exact isLine

/-- A replica holds the text that it was made for exactly if it dropped nothing. -/
theorem text_ofText_eq_iff : (ofText text).text = text ↔ text.PlainEnds := by
  refine ⟨fun same => linesOf_eq_iff.mp ?_, fun plain => ?_⟩
  · have areLines : ∀ line ∈ linesOf text, IsLine line := by
      intro line member
      obtain ⟨whole, part, rfl⟩ := List.mem_map.mp member
      exact isLine_withoutReturn (isLine_of_mem_lines part)
    have some : linesOf text ≠ [] := fun none => lines_ne_nil text (List.map_eq_nil_iff.mp none)
    exact (lines_unlines some areLines).symm.trans (congrArg Text.lines same)
  · rw [ofText_eq plain]
    exact unlines_lines text

/-- The replica of a text that follows splices is the replica of what they make of the text, as long as
there was no carriage return to drop before. -/
theorem follow_made {last : Text} (leads : Leads text edits last) (part : told <+: edits)
    (addressable : ∀ early, early <+: edits → (made early text).Addressable)
    (plain : ∀ early, early <+: told → early ≠ told → (made early text).PlainEnds) :
    ((ofText text).follow told).2 = ofText (made told text) := by
  obtain ⟨rest, rfl⟩ := part
  refine (follow_leads leads.of_append.1 (fun k _ => addressable _ ?_) fun k bound => plain _ ?_ ?_).1
  · exact (List.take_prefix k told).trans (List.prefix_append told rest)
  · exact List.take_prefix k told
  · intro whole
    have length := congrArg List.length whole
    rw [List.length_take] at length
    omega

/-- If the replica holds the text after all splices of a row, no carriage return was dropped. -/
theorem plainEnds_of_follow {last : Text} (leads : Leads text edits last)
    (addressable : ∀ early, early <+: edits → (made early text).Addressable)
    (holds : ∀ early, early <+: edits → ((ofText text).follow early).2.text = made early text)
    (part : told <+: edits) : (made told text).PlainEnds := by
  -- By induction on the length, the texts before were plain, and this one is held.
  induction length : told.length using Nat.strongRecOn generalizing told with
  | ind n ih =>
    subst length
    have held := follow_made leads part addressable fun early before other =>
      ih early.length (Nat.lt_of_le_of_ne before.length_le fun same => other (before.eq_of_length same))
        (before.trans part) rfl
    rw [← text_ofText_eq_iff, ← held]
    exact holds told part

/-- A buffer recorded splices, and a replica of the text with which recording began follows them. It
holds the text after every batch, however they are split into batches, exactly if none of the texts has
a line that ends in a carriage return. As long as none had one, it holds the text but for such carriage
returns, and if the text has none either, the change that it makes of the next splice means to a server
that holds the text what the splice does. -/
theorem keeps_up_iff {taken : List (List Splice)} {buffer : Buffer}
    (recorded : buffer.Recorded text taken)
    (addressable : ∀ told, told <+: taken.flatten ++ buffer.drained → (made told text).Addressable) :
    let edits := taken.flatten ++ buffer.drained
    made edits text = buffer.text ∧
    ((∀ batches : List (List Splice), batches.flatten <+: edits →
        ((ofText text).followAll batches).text = made batches.flatten text) ↔
      ∀ told, told <+: edits → (made told text).PlainEnds) ∧
    ∀ batches : List (List Splice), batches.flatten <+: edits →
      (∀ early, early <+: batches.flatten → early ≠ batches.flatten → (made early text).PlainEnds) →
      (ofText text).followAll batches = ofText (made batches.flatten text) ∧
      ∀ splice, batches.flatten ++ [splice] <+: edits → (made batches.flatten text).PlainEnds →
        (((ofText text).followAll batches).changeOf splice).Means (made batches.flatten text) splice := by
  intro edits
  obtain ⟨-, leads⟩ := recorded.leads
  simp only [followAll_eq]
  refine ⟨leads.foldl_eq, ⟨fun holds told part => ?_, fun plain batches part => ?_⟩,
    fun batches part before => ?_⟩
  · -- Any of the first splices can be told in one batch.
    refine plainEnds_of_follow leads addressable (fun early before => ?_) part
    have one := holds [early]
    rw [List.flatten_singleton] at one
    exact one before
  · rw [follow_made leads part addressable fun early before _ => plain early (before.trans part)]
    exact text_ofText_eq_iff.mpr (plain _ part)
  · have held := follow_made leads part addressable before
    refine ⟨held, fun splice next plain => ?_⟩
    -- What was recorded leads on from the text so far, so the next splice fits it.
    obtain ⟨rest, whole⟩ := next
    have leads : Leads text (batches.flatten ++ [splice] ++ rest) buffer.text := whole.symm ▸ leads
    rw [List.append_assoc] at leads
    cases leads.of_append.2 with
    | step fits _ =>
      rw [held]
      exact (apply_changeOf fits (addressable _ part) plain).1

/-- So the change of a splice behind a line that came to end in a carriage return is made one character
too far down, here behind the character that the splice replaces. -/
theorem falls_behind_return : ∃ buffer : Buffer,
    buffer.Recorded "ab" [[⟨1, "", "\r\n"⟩]] ∧ buffer.drained = [⟨3, "b", "c"⟩] ∧
    buffer.text = "a\r\nc" ∧
    ((ofText "ab").changeOf ⟨1, "", "\r\n"⟩).Means "ab" ⟨1, "", "\r\n"⟩ ∧
    (ofText "ab").followAll [[⟨1, "", "\r\n"⟩]] = ofText "a\r\nb" ∧
    ((ofText "a\r\nb").changeOf ⟨3, "b", "c"⟩).range = ⟨⟨1, 1⟩, ⟨1, 1⟩⟩ ∧
    ((ofText "ab").followAll [[⟨1, "", "\r\n"⟩], buffer.drained]).text = "a\nbc" ∧
    ¬∀ batches : List (List Splice), batches.flatten <+: [⟨1, "", "\r\n"⟩, ⟨3, "b", "c"⟩] →
      ((ofText "ab").followAll batches).text = made batches.flatten "ab" := by
  have started : Buffer.Recorded "ab" [] ((Buffer.ofText "ab").track true) := .start rfl rfl
  have typed := started.act (show Buffer.Action.keepsRecord (.replace 1 1 "\r\n" .alone) = true from rfl)
  obtain ⟨buffer, recorded, drained, text⟩ : ∃ buffer : Buffer,
      buffer.Recorded "ab" [[⟨1, "", "\r\n"⟩]] ∧ buffer.drained = [⟨3, "b", "c"⟩] ∧
      buffer.text = "a\r\nc" :=
    ⟨_, typed.drain.act (show Buffer.Action.keepsRecord (.replace 3 4 "c" .alone) = true from rfl),
      by decide +kernel, by decide +kernel⟩
  obtain ⟨-, keeps, means⟩ := keeps_up_iff recorded fun told part => by
    rw [drained, ← List.mem_inits] at part
    revert told
    decide +kernel
  rw [drained] at keeps means
  have first := (means [] (by decide +kernel) (by simp)).2 ⟨1, "", "\r\n"⟩ (by decide +kernel)
    (by decide +kernel)
  have held := (means [[⟨1, "", "\r\n"⟩]] (by decide +kernel) fun early part => by
    rw [← List.mem_inits] at part
    revert early
    decide +kernel).1
  refine ⟨buffer, recorded, drained, text, first, held, by decide +kernel, ?_, fun holds => ?_⟩
  · rw [drained]
    decide +kernel
  · exact absurd (keeps.mp holds [⟨1, "", "\r\n"⟩] (by decide +kernel)) (by decide +kernel)

end Replica

end Lsp

end Notebook

import Notebook.Proofs.Uri.Percent
import Notebook.Uri.Addresses
/-!
# Previews carry the paths of their notebooks

The URI of a preview shows a file name and carries the whole path. Both are encoded, so neither can be
mistaken for the marks around them: the path is read back as it was, and different paths have different
previews.
-/
namespace Notebook

namespace Text

variable {separates : Char → Bool}

theorem after?_append (beginning rest : Text) : after? beginning (beginning ++ rest) = some rest := by
  rw [after?, if_pos (List.isPrefixOf_iff_prefix.mpr (List.prefix_append beginning rest)),
    List.drop_left]

theorem pieces_ne_nil (text : Text) : pieces separates text ≠ [] := by
  cases text with
  | nil => simp [pieces]
  | cons c rest =>
    rw [pieces]
    split
    · simp
    · split <;> simp

/-- A text that nothing separates is its only piece. -/
theorem pieces_eq_singleton {text : Text} (whole : ∀ c ∈ text, separates c = false) :
    pieces separates text = [text] := by
  induction text with
  | nil => rfl
  | cons c rest ih =>
    obtain ⟨here, others⟩ := List.forall_mem_cons.mp whole
    simp [pieces, here, ih others]

/-- No piece has a character that separates. -/
theorem not_separates_of_mem_pieces {text piece : Text} (member : piece ∈ pieces separates text) :
    ∀ c ∈ piece, separates c = false := by
  induction text generalizing piece with
  | nil =>
    obtain rfl := List.mem_singleton.mp member
    exact List.forall_mem_nil _
  | cons c rest ih =>
    rw [pieces] at member
    split at member
    next =>
      rcases List.mem_cons.mp member with rfl | later
      · exact List.forall_mem_nil _
      · exact ih later
    next inside =>
      split at member
      next none => exact absurd none (pieces_ne_nil rest)
      next first more known =>
        rw [known] at ih
        rcases List.mem_cons.mp member with rfl | later
        · exact List.forall_mem_cons.mpr ⟨by simpa using inside, ih List.mem_cons_self⟩
        · exact ih (List.mem_cons_of_mem _ later)

theorem trimEnd_eq_nil_iff {drops : Char → Bool} {text : Text} :
    trimEnd drops text = [] ↔ ∀ c ∈ text, drops c = true := by
  simp [trimEnd, List.dropWhile_eq_nil_iff]

end Text

namespace Uri

/-! ## Names -/

/-- The name of a file is not made of slashes alone, unless its path is. -/
theorem exists_mem_fileName {path : Text} (named : ∃ c ∈ path, c ≠ '/') :
    ∃ c ∈ fileName path, c ≠ '/' := by
  unfold fileName
  split
  next => exact named
  next name last =>
    split
    next => exact named
    next =>
      have member : name ∈ components path := List.mem_of_getLast? last
      obtain ⟨piece, proper⟩ := List.mem_filter.mp member
      have proper : name ≠ [] ∧ name ≠ "." := by simpa using proper
      obtain ⟨c, here⟩ := List.exists_mem_of_ne_nil name proper.1
      refine ⟨c, here, fun slash => ?_⟩
      have inside := Text.not_separates_of_mem_pieces piece c here
      simp [slash] at inside

theorem exists_mem_encode {text : Text} (named : ∃ c ∈ text, c ≠ '/') :
    ∃ c ∈ encode text, c ≠ '/' := by
  obtain ⟨c, member, other⟩ := named
  by_cases plain : isPlain c
  · exact ⟨c, List.mem_flatMap.mpr ⟨c, member, by simp [plain]⟩, other⟩
  · -- Every character has octets, and each of them is written with a percent sign.
    obtain ⟨octet, written⟩ := List.exists_mem_of_ne_nil (Utf8.encodeChar c) (Utf8.encodeChar_ne_nil c)
    refine ⟨'%', List.mem_flatMap.mpr ⟨c, member, ?_⟩, by decide⟩
    rw [if_neg plain]
    exact List.mem_flatMap.mpr ⟨octet, written, List.mem_cons_self⟩

/-! ## Reading a preview URI -/

theorem not_mem_encode {mark : Char} (special : isPlain mark = false) (other : mark ≠ '%')
    (text : Text) : mark ∉ encode text := by
  intro member
  rcases mem_encode member with plain | percent
  · rw [special] at plain
    cases plain
  · exact other percent

theorem previewParts?_preview (path scheme : Text) : previewParts? (preview path scheme) scheme =
    some (encode (fileName path), some ("path=" ++ encode path)) := by
  have query : "?path=" ++ encode path = '?' :: ("path=" ++ encode path) := rfl
  -- The encoded name ends at the first question mark.
  have inside : ∀ c ∈ encode (fileName path), decide (c ≠ '?') = true := by
    intro c member
    have other : c ≠ '?' := by
      rintro rfl
      exact not_mem_encode (by decide) (by decide) _ member
    simpa using other
  have name : (encode (fileName path) ++ '?' :: ("path=" ++ encode path)).takeWhile (· ≠ '?') =
      encode (fileName path) := by
    rw [List.takeWhile_append_of_pos inside, List.takeWhile_cons_of_neg (by simp), List.append_nil]
  unfold previewParts? preview
  rw [List.append_assoc, List.append_assoc, List.append_assoc, Text.after?_append]
  simp only [Option.bind_eq_bind, Option.bind_some, Text.after?_append, query, name]
  simp

theorem previewPath?_preview (path scheme : Text) :
    previewPath? (preview path scheme) scheme = if path = [] then none else some path := by
  have mark : ∀ c ∈ "path=".toList, decide (c = '&') = false := by simp
  have whole : ∀ c ∈ "path=".toList ++ encode path, decide (c = '&') = false := by
    refine List.forall_mem_append.mpr ⟨mark, fun c member => ?_⟩
    have other : c ≠ '&' := by
      rintro rfl
      exact not_mem_encode (by decide) (by decide) _ member
    simpa using other
  unfold previewPath?
  rw [previewParts?_preview]
  simp only [Option.bind_eq_bind, Option.bind_some]
  rw [Text.pieces_eq_singleton whole, List.findSome?_cons, Text.after?_append, Option.bind_some]
  simp only [encode_eq_nil_iff, decode_encode]

/-- Only a path of slashes alone has a preview that shows no name. -/
theorem isSome_previewName?_preview {path : Text} (named : ∃ c ∈ path, c ≠ '/') (scheme : Text) :
    (previewName? (preview path scheme) scheme).isSome := by
  have shown : Text.trimEnd (· = '/') (encode (fileName path)) ≠ [] := by
    rw [Ne, Text.trimEnd_eq_nil_iff]
    obtain ⟨c, member, other⟩ := exists_mem_encode (exists_mem_fileName named)
    exact fun slashes => other (by simpa using slashes c member)
  unfold previewName?
  rw [previewParts?_preview]
  simp [shown]

theorem preview_injective (scheme : Text) : Function.Injective fun path => preview path scheme := by
  intro path other same
  have read : previewPath? (preview path scheme) scheme = previewPath? (preview other scheme) scheme :=
    congrArg (previewPath? · scheme) same
  rw [previewPath?_preview, previewPath?_preview] at read
  split at read <;> split at read <;> simp_all

end Uri

end Notebook

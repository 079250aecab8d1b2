import Notebook.Proofs.Layout
/-!
# Keeping the shadow

Bringing one cell of the shadow in line makes the same page as making the shadow anew. Either way
the shadow is changed by splices, and what they insert comes from sources.
-/
namespace Notebook

open Text

namespace Shadow

open Layout

theorem mem_of_mem_contentLines {cell : Cell} {line : Text} {c : Char}
    (part : line ∈ contentLines cell) (member : c ∈ line) : c ∈ cell.source := by
  unfold contentLines at part
  split at part
  · exact mem_of_mem_lines part member
  · rw [List.eq_of_mem_replicate part] at member
    cases member

/-- A character stands in the source of one of the cells. -/
def StandsIn (cells : List Cell) (c : Char) : Prop := ∃ cell ∈ cells, c ∈ cell.source

/-- Everything that the shadow shows stands in the source of a cell. -/
theorem standsIn_of_mem_lines {cells : List Cell} {line : Text} {c : Char}
    (part : line ∈ Shadow.lines cells) (member : c ∈ line) : StandsIn cells c := by
  rw [← page_shadowFace] at part
  cases cells with
  | nil =>
    obtain rfl : line = [] := by simpa [page_nil] using part
    cases member
  | cons first rest =>
    rw [page_of_ne_nil (List.cons_ne_nil _ _), Face.rows, List.mem_flatMap] at part
    obtain ⟨cell, here, part⟩ := part
    simp only [List.cons_append, List.nil_append, List.append_assoc, List.mem_cons,
      List.mem_append, List.not_mem_nil, or_false] at part
    rcases part with rfl | content | rfl | rfl
    · cases member
    · exact ⟨cell, here, mem_of_mem_contentLines content member⟩
    · cases member
    · cases member

/-- The shadow was changed by splices, and apart from line breaks only characters of some set were
inserted. -/
inductive Written (allowed : Char → Prop) (shadow : Buffer) : Buffer → Prop
  | idle : Written allowed shadow shadow
  | splice {changed : Buffer} (start stop : Nat) (inserted : Text) : Written allowed shadow changed →
      (∀ c ∈ inserted, c = '\n' ∨ allowed c) →
      Written allowed shadow (changed.replace start stop inserted .alone)

theorem Written.mono {allowed more : Char → Prop} {before after : Buffer}
    (written : Written allowed before after) (within : ∀ c, allowed c → more c) :
    Written more before after := by
  induction written with
  | idle => exact .idle
  | splice start stop inserted _ known ih =>
    exact ih.splice start stop inserted fun c member => (known c member).imp_right (within c)

theorem Written.trans {allowed : Char → Prop} {before middle after : Buffer}
    (first : Written allowed before middle) (second : Written allowed middle after) :
    Written allowed before after := by
  induction second with
  | idle => exact first
  | splice start stop inserted _ known ih => exact ih.splice start stop inserted known

theorem written_refresh (shadow : Buffer) (cells : List Cell) :
    Written (StandsIn cells) shadow (refresh shadow cells).2 := by
  rcases shadow.setLines_cases (Shadow.lines cells) .alone with same | ⟨first, last, inserted, eq, known⟩
  · rw [refresh, same]
    exact .idle
  · rw [refresh, eq]
    refine Written.idle.splice first last inserted fun c member => ?_
    exact (known c member).imp_right fun ⟨line, part, member⟩ => standsIn_of_mem_lines part member

theorem lines_refresh (shadow : Buffer) (cells : List Cell) :
    (refresh shadow cells).2.lines = Shadow.lines cells :=
  shadow.lines_setLines (page_ne_nil shadowFace cells) (areLines_page regular_shadowFace cells) .alone

theorem lines_ofCells (cells : List Cell) : (ofCells cells).lines = Shadow.lines cells :=
  lines_unlines (page_ne_nil shadowFace cells) (areLines_page regular_shadowFace cells)

theorem written_patch (shadow : Buffer) (span : Span) (cell : Cell) :
    Written (· ∈ cell.source) shadow (patch shadow span cell) := by
  unfold patch
  split
  · exact .idle
  · dsimp only
    split
    · exact .idle
    · rcases shadow.replaceLines_cases span.contentStart span.contentStop (contentLines cell) .alone
        with same | ⟨first, last, inserted, eq, known⟩
      · rw [same]
        exact .idle
      · rw [eq]
        refine Written.idle.splice first last inserted fun c here => (known c here).imp_right ?_
        exact fun ⟨line, part, here⟩ => mem_of_mem_contentLines part here

/-- Patching a cell makes the page of the cells with the other one in its place. -/
theorem lines_patch {shadow : Buffer} {above below : List Cell} {cell other : Cell}
    (page : shadow.lines = Shadow.lines (above ++ cell :: below)) (kind : other.kind = cell.kind) :
    (patch shadow ⟨depth above, depth above + cell.height - 1⟩ other).lines =
      Shadow.lines (above ++ other :: below) := by
  have length : depth above + 1 + cell.lineCount - depth above - 1 = cell.lineCount := by
    omega
  rw [← page_shadowFace] at page ⊢
  -- The shadow is left alone only where the page shows the same content already.
  have unchanged (same : contentLines other = contentLines cell) :
      shadow.lines = shadowFace.page (above ++ other :: below) := by
    rw [page, page_around, page_around]
    change _ ++ [] :: (contentLines cell ++ _) = _ ++ [] :: (contentLines other ++ _)
    rw [same]
  simp only [patch, Span.contentStart, Span.contentStop, Span.contentLength, contentStop_eq,
    length]
  split
  next idle =>
    have blank : other.kind.isCode = false := by simpa using idle.1
    refine unchanged ?_
    simp [contentLines, ← kind, blank, idle.2]
  next =>
    split
    next same =>
      refine unchanged ?_
      rw [← same, linesBetween]
      change (shadow.lines.take _).drop _ = _
      rw [page]
      exact content_page regular_shadowFace
    next =>
      have top : shadowFace.top other = shadowFace.top cell := rfl
      exact lines_write regular_shadowFace page top .alone

end Shadow

end Notebook

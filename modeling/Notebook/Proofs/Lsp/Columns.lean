import Mathlib.Order.Bounds.Basic
import Notebook.Proofs.Lsp.Replica
/-!
# Columns in characters and in code units

A column of a line counts characters, a point that a server is told of counts UTF-16 code units. The two
conversions are adjoint: as many characters reach a number of code units as soon as their code units are no
fewer. So converting a column there and back changes nothing, converting code units gives the first column
that reaches them, and neither conversion turns an order around.
-/
namespace Notebook

namespace Text

variable {text : Text}

theorem unitOffset_of_length_le {n : Nat} (past : text.length ≤ n) : unitOffset text n = units text := by
  rw [unitOffset, List.take_of_length_le past]

theorem monotone_unitOffset (text : Text) : Monotone (unitOffset text) := by
  intro k n le
  obtain ⟨between, split⟩ : text.take k <+: text.take n := List.take_prefix_take_left le
  rw [unitOffset, unitOffset, ← split, units_append]
  exact Nat.le_add_right _ _

theorem unitOffset_le (text : Text) (n : Nat) : unitOffset text n ≤ units text := by
  rw [← unitOffset_of_length_le (Nat.le_add_left text.length n)]
  exact text.monotone_unitOffset (Nat.le_add_right n text.length)

/-- So many characters reach a number of code units if theirs are no fewer, or if there are no more. -/
theorem charOffset_le_iff {u k : Nat} :
    charOffset text u ≤ k ↔ u ≤ unitOffset text k ∨ text.length ≤ k := by
  induction text generalizing u k with
  | nil => simp [charOffset]
  | cons c rest ih =>
    rw [charOffset]
    split
    next zero => simp [zero]
    next positive =>
      cases k with
      | zero => simp [unitOffset, units, positive]
      | succ k =>
        have next : unitOffset (c :: rest) (k + 1) = unitsOf c + unitOffset rest k := rfl
        have step := ih (u := u - unitsOf c) (k := k)
        rw [next, List.length_cons]
        omega

theorem le_unitOffset_charOffset (text : Text) (u : Nat) :
    u ≤ unitOffset text (charOffset text u) ∨ text.length ≤ charOffset text u :=
  charOffset_le_iff.mp (Nat.le_refl _)

theorem monotone_charOffset (text : Text) : Monotone (charOffset text) := fun _ v le =>
  charOffset_le_iff.mpr ((text.le_unitOffset_charOffset v).imp_left (Nat.le_trans le))

theorem charOffset_unitOffset (text : Text) (n : Nat) :
    charOffset text (unitOffset text n) = min n text.length := by
  have back := charOffset_units (text.take n) (text.drop n)
  rwa [List.take_append_drop, List.length_take] at back

/-- The first column that reaches a number of code units, if there is any. -/
theorem isLeast_charOffset {u : Nat} (reached : ∃ k, u ≤ unitOffset text k) :
    IsLeast {k | u ≤ unitOffset text k} (charOffset text u) := by
  refine ⟨?_, fun k reaches => charOffset_le_iff.mpr (.inl reaches)⟩
  rcases text.le_unitOffset_charOffset u with here | past
  · exact here
  · -- All characters were taken, and no more of them can be had.
    obtain ⟨k, reaches⟩ := reached
    change u ≤ unitOffset text (charOffset text u)
    rw [unitOffset_of_length_le past]
    exact Nat.le_trans reaches (text.unitOffset_le k)

theorem charOffset_of_not_reached {u : Nat} (beyond : ¬∃ k, u ≤ unitOffset text k) :
    charOffset text u = text.length :=
  Nat.le_antisymm (text.charOffset_le_length u)
    ((text.le_unitOffset_charOffset u).resolve_left fun here => beyond ⟨_, here⟩)

/-- A number of code units that ends within a character stands for the place behind the character. -/
theorem charOffset_within (front : Text) {c : Char} (back : Text) {j : Nat} (positive : 0 < j)
    (within : j ≤ unitsOf c) : charOffset (front ++ c :: back) (units front + j) = front.length + 1 := by
  have before : unitOffset (front ++ c :: back) front.length = units front := by
    rw [unitOffset, List.take_left]
  have behind : unitOffset (front ++ c :: back) (front.length + 1) = units front + unitsOf c := by
    rw [unitOffset, List.append_cons, List.take_left' (by simp), units_append]
    rfl
  apply Nat.le_antisymm
  · exact charOffset_le_iff.mpr (.inl (by omega))
  · by_contra early
    have reached := charOffset_le_iff.mp (Nat.le_of_lt_succ (Nat.lt_of_not_le early))
    rw [before, List.length_append, List.length_cons] at reached
    omega

end Text

namespace Lsp

open Text

/-- The end of a line of a replica, as an offset of the document, as a place and as a point. -/
theorem Replica.lineEnd (above : List Text) (line : Text) (below : List Text) :
    let replica : Replica := ⟨above ++ line :: below⟩
    replica.placeOf ((terminated above).length + line.length) = ⟨above.length, line.length⟩ ∧
      replica.pointAt ⟨above.length, line.length⟩ = ⟨word above.length, word (units line)⟩ := by
  intro replica
  constructor
  · have place := placeIn_eq 0 above line [] below
    rwa [List.append_nil, Nat.zero_add] at place
  · have here : replica.lineAt above.length = line := by simp [lineAt, replica]
    rw [pointAt, here, Point.ofColumn, unitOffset_of_length_le (Nat.le_refl _)]

/-- Characters and UTF-16 code units of any text. Converting characters to code units and back changes
nothing but what is past the end. Converting code units gives the least number of characters that reach
them, or all characters if none do, so what ends within a surrogate pair is rounded up. Neither conversion
turns an order around. And where the text is a line of a replica, its end is told by the code units of the
whole line. -/
theorem columns_galois (text : Text) :
    (∀ n, charOffset text (unitOffset text n) = min n text.length) ∧
    (∀ u, (∃ k, u ≤ unitOffset text k) → IsLeast {k | u ≤ unitOffset text k} (charOffset text u)) ∧
    (∀ u, (¬∃ k, u ≤ unitOffset text k) → charOffset text u = text.length) ∧
    (∀ front c back j, text = front ++ c :: back → 0 < j → j ≤ unitsOf c →
      charOffset text (units front + j) = front.length + 1) ∧
    Monotone (unitOffset text) ∧ Monotone (charOffset text) ∧
    unitOffset text text.length = units text ∧ charOffset text (units text) = text.length ∧
    ∀ (replica : Replica) (above below : List Text), replica.lines = above ++ text :: below →
      replica.placeOf ((terminated above).length + text.length) = ⟨above.length, text.length⟩ ∧
      replica.pointAt ⟨above.length, text.length⟩ = ⟨word above.length, word (units text)⟩ := by
  refine ⟨text.charOffset_unitOffset, fun _ => isLeast_charOffset, fun _ => charOffset_of_not_reached,
    ?_, text.monotone_unitOffset, text.monotone_charOffset,
    unitOffset_of_length_le (Nat.le_refl _), ?_, ?_⟩
  · rintro front c back j rfl positive within
    exact charOffset_within front back positive within
  · simpa using charOffset_units text []
  · rintro ⟨lines⟩ above below rfl
    exact Replica.lineEnd above text below

/-- So it is in a line with a character beyond the basic plane: the second half of its pair and the place
behind it are one column, and what is past the end is the end. -/
theorem columns_galois_of_pair :
    let line : Text := "a = '👋' + b"
    IsLeast {k | 6 ≤ unitOffset line k} 6 ∧ charOffset line 6 = 6 ∧ charOffset line 7 = 6 ∧
      charOffset line 99 = 11 ∧
      Replica.pointAt ⟨["", line, ""]⟩ ⟨1, 11⟩ = ⟨1, 12⟩ := by
  intro line
  obtain ⟨-, least, past, within, -, -, -, -, ends⟩ := columns_galois line
  refine ⟨least 6 ⟨11, by decide⟩, within "a = '" '👋' "' + b" 1 rfl (by decide) (by decide),
    within "a = '" '👋' "' + b" 2 rfl (by decide) (by decide), past 99 ?_, ?_⟩
  · rintro ⟨k, reaches⟩
    exact absurd (Nat.le_trans reaches (unitOffset_le line k)) (by decide)
  · exact (ends ⟨["", line, ""]⟩ [""] [""] rfl).2

end Lsp

end Notebook

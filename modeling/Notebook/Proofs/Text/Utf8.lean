import Mathlib
import Notebook.Text.Utf8
/-!
# Reading UTF-8 back

The octets that a character is written with are read as that character, whatever follows them. So a
text is read back from its octets.
-/
namespace Notebook.Utf8

theorem encodeChar_lt (c : Char) : ∀ octet ∈ encodeChar c, octet < 0x100 := by
  have valid : c.toNat < 0xD800 ∨ 0xDFFF < c.toNat ∧ c.toNat < 0x110000 := c.valid
  unfold encodeChar
  dsimp only
  split
  · simp; omega
  split
  · simp; omega
  split <;> simp <;> omega

theorem encodeChar_ne_nil (c : Char) : encodeChar c ≠ [] := by
  unfold encodeChar
  dsimp only
  split
  · simp
  split
  · simp
  split <;> simp

/-! ## First octets -/

theorem first_of_one {b : Nat} (ascii : b < 0x80) : first b = ([Char.ofNat b], none) :=
  if_pos ascii

theorem first_of_two {b : Nat} (low : 0xC2 ≤ b) (high : b ≤ 0xDF) :
    first b = ([], some ⟨b - 0xC0, 0, 0x80, 0xBF⟩) := by
  rw [first, if_neg (by omega), if_pos ⟨low, high⟩]

/-- The octet after a first one of three or four is at least this. -/
def lowAfter (b : Nat) : Nat := if b = 0xE0 then 0xA0 else if b = 0xF0 then 0x90 else 0x80

/-- The octet after a first one of three or four is at most this. -/
def highAfter (b : Nat) : Nat := if b = 0xED then 0x9F else if b = 0xF4 then 0x8F else 0xBF

theorem first_of_three {b : Nat} (low : 0xE0 ≤ b) (high : b ≤ 0xEF) :
    first b = ([], some ⟨b - 0xE0, 1, lowAfter b, highAfter b⟩) := by
  unfold first lowAfter highAfter
  grind

theorem first_of_four {b : Nat} (low : 0xF0 ≤ b) (high : b ≤ 0xF4) :
    first b = ([], some ⟨b - 0xF0, 2, lowAfter b, highAfter b⟩) := by
  unfold first lowAfter highAfter
  grind

/-! ## Further octets -/

theorem decodeFrom_none (b : Nat) (rest : List Nat) :
    decodeFrom none (b :: rest) = (first b).1 ++ decodeFrom (first b).2 rest := rfl

theorem decodeFrom_last {bits low high b : Nat} (within : low ≤ b ∧ b ≤ high) (rest : List Nat) :
    decodeFrom (some ⟨bits, 0, low, high⟩) (b :: rest) =
      Char.ofNat (bits * 0x40 + b % 0x40) :: decodeFrom none rest := by
  simp [decodeFrom, step, within]

theorem decodeFrom_more {bits owed low high b : Nat} (within : low ≤ b ∧ b ≤ high)
    (rest : List Nat) : decodeFrom (some ⟨bits, owed + 1, low, high⟩) (b :: rest) =
      decodeFrom (some ⟨bits * 0x40 + b % 0x40, owed, 0x80, 0xBF⟩) rest := by
  simp [decodeFrom, step, within]

/-- A further octet carries six bits. -/
theorem within_tail (n : Nat) : 0x80 ≤ 0x80 + n % 0x40 ∧ 0x80 + n % 0x40 ≤ 0xBF := by omega

/-! ## Characters and texts -/

theorem decodeFrom_encodeChar (c : Char) (rest : List Nat) :
    decodeFrom none (encodeChar c ++ rest) = c :: decodeFrom none rest := by
  -- Surrogates are no characters, which the bounds behind the octets 0xED and 0xF4 rely on.
  have valid : c.toNat < 0xD800 ∨ 0xDFFF < c.toNat ∧ c.toNat < 0x110000 := c.valid
  have read {n : Nat} (same : n = c.toNat) : Char.ofNat n = c := same ▸ c.ofNat_toNat
  unfold encodeChar
  dsimp only
  split
  next ascii =>
    simp only [List.cons_append, List.nil_append, decodeFrom_none, first_of_one ascii, read rfl]
  next =>
    split
    next =>
      simp only [List.cons_append, List.nil_append]
      rw [decodeFrom_none, first_of_two (by omega) (by omega), List.nil_append,
        decodeFrom_last (within_tail _), read (by omega)]
    next =>
      split
      next =>
        -- The second octet keeps to the bounds that exclude surrogates and overlong encodings.
        have second : lowAfter (0xE0 + c.toNat / 0x1000) ≤ 0x80 + c.toNat / 0x40 % 0x40 ∧
            0x80 + c.toNat / 0x40 % 0x40 ≤ highAfter (0xE0 + c.toNat / 0x1000) := by
          unfold lowAfter highAfter
          grind
        simp only [List.cons_append, List.nil_append]
        rw [decodeFrom_none, first_of_three (by omega) (by omega), List.nil_append,
          decodeFrom_more second, decodeFrom_last (within_tail _), read (by omega)]
      next =>
        have second : lowAfter (0xF0 + c.toNat / 0x40000) ≤ 0x80 + c.toNat / 0x1000 % 0x40 ∧
            0x80 + c.toNat / 0x1000 % 0x40 ≤ highAfter (0xF0 + c.toNat / 0x40000) := by
          unfold lowAfter highAfter
          grind
        simp only [List.cons_append, List.nil_append]
        rw [decodeFrom_none, first_of_four (by omega) (by omega), List.nil_append,
          decodeFrom_more second, decodeFrom_more (within_tail _), decodeFrom_last (within_tail _),
          read (by omega)]

theorem decode_encode (text : Text) : decode (encode text) = text := by
  unfold decode encode
  induction text with
  | nil => rfl
  | cons c rest ih => rw [List.flatMap_cons, decodeFrom_encodeChar, ih]

end Notebook.Utf8

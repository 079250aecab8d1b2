import Notebook.Text.Lines
/-!
# UTF-8

Texts as sequences of octets. Writing is exact. Reading accepts every sequence: each longest
part of it that begins a character without completing one, and each octet that begins none, is
read as U+FFFD.

Octets are natural numbers below 256.
-/
namespace Notebook.Utf8

def encodeChar (c : Char) : List Nat :=
  let n := c.toNat
  if n < 0x80 then [n]
  else if n < 0x800 then [0xC0 + n / 0x40, 0x80 + n % 0x40]
  else if n < 0x10000 then [0xE0 + n / 0x1000, 0x80 + n / 0x40 % 0x40, 0x80 + n % 0x40]
  else [0xF0 + n / 0x40000, 0x80 + n / 0x1000 % 0x40, 0x80 + n / 0x40 % 0x40, 0x80 + n % 0x40]

def encode (text : Text) : List Nat := text.flatMap encodeChar

/-- A character of which some octets were read. -/
structure Begun where
  bits : Nat
  /-- Octets that still follow after the next one. -/
  owed : Nat
  low : Nat
  high : Nat
  deriving DecidableEq, Repr

/-- The character that stands for octets that are not UTF-8. -/
def replacement : Char := Char.ofNat 0xFFFD

/-- Read the first octet of a character. Gives what is complete and what is begun. -/
def first (b : Nat) : Text × Option Begun :=
  if b < 0x80 then ([Char.ofNat b], none)
  else if 0xC2 ≤ b ∧ b ≤ 0xDF then ([], some ⟨b - 0xC0, 0, 0x80, 0xBF⟩)
  -- Narrower bounds for the next octet rule out long forms, surrogates and what is too large.
  else if b = 0xE0 then ([], some ⟨0, 1, 0xA0, 0xBF⟩)
  else if b = 0xED then ([], some ⟨0xD, 1, 0x80, 0x9F⟩)
  else if 0xE1 ≤ b ∧ b ≤ 0xEF then ([], some ⟨b - 0xE0, 1, 0x80, 0xBF⟩)
  else if b = 0xF0 then ([], some ⟨0, 2, 0x90, 0xBF⟩)
  else if 0xF1 ≤ b ∧ b ≤ 0xF3 then ([], some ⟨b - 0xF0, 2, 0x80, 0xBF⟩)
  else if b = 0xF4 then ([], some ⟨4, 2, 0x80, 0x8F⟩)
  else ([replacement], none)

/-- Read an octet after a character was begun, or not. -/
def step (begun : Option Begun) (b : Nat) : Text × Option Begun :=
  match begun with
  | none => first b
  | some ⟨bits, owed, low, high⟩ =>
    if low ≤ b ∧ b ≤ high then
      let bits := bits * 0x40 + b % 0x40
      match owed with
      | 0 => ([Char.ofNat bits], none)
      | owed + 1 => ([], some ⟨bits, owed, 0x80, 0xBF⟩)
    else
      -- The octet that does not go on with a character may begin another.
      let (text, begun) := first b
      (replacement :: text, begun)

/-- Read octets after a character was begun, or not. -/
def decodeFrom (begun : Option Begun) : List Nat → Text
  | [] => if begun.isSome then [replacement] else []
  | b :: rest => (step begun b).1 ++ decodeFrom (step begun b).2 rest

def decode (octets : List Nat) : Text := decodeFrom none octets

end Notebook.Utf8

import Notebook.Text.Utf8
/-!
# Percent encoding

An octet is written as a percent sign and two hexadecimal digits. Encoding writes the octets of a
text so, except those of characters that may stand for themselves. Decoding reads every such
triple, in either case of its digits, and leaves everything else as it is, a percent sign without
two digits included.
-/
namespace Notebook.Uri

/-- The upper-case hexadecimal digit of a number below 16. -/
def hexDigit (n : Nat) : Char := Char.ofNat (if n < 10 then 0x30 + n else 0x37 + n)

/-- The value of a hexadecimal digit in either case. -/
def hexValue? (c : Char) : Option Nat :=
  if '0' ≤ c ∧ c ≤ '9' then some (c.toNat - 0x30)
  else if 'a' ≤ c ∧ c ≤ 'f' then some (c.toNat - 0x57)
  else if 'A' ≤ c ∧ c ≤ 'F' then some (c.toNat - 0x37)
  else none

/-- An octet as percent sign and two digits. -/
def encodeOctet (octet : Nat) : Text := ['%', hexDigit (octet / 16), hexDigit (octet % 16)]

/-- Encode the characters that may not stand for themselves. -/
def encodeWith (stands : Char → Bool) (text : Text) : Text :=
  text.flatMap fun c => if stands c then [c] else (Utf8.encodeChar c).flatMap encodeOctet

/-- The octets of a text with its triples read. -/
def decodeOctets : Text → List Nat
  | [] => []
  | '%' :: a :: b :: rest => match hexValue? a, hexValue? b with
    | some high, some low => (16 * high + low) :: decodeOctets rest
    | _, _ => 0x25 :: decodeOctets (a :: b :: rest)
  | c :: rest => Utf8.encodeChar c ++ decodeOctets rest

/-- ASCII letters, digits, `-`, `.`, `_`, `~` and the slash stand for themselves. -/
def isPlain (c : Char) : Bool := c.isAlphanum || "-._~/".toList.contains c

/-- Encode everything but plain characters. -/
def encode (text : Text) : Text := encodeWith isPlain text

/-- The text with its triples read. Octets that are not UTF-8 become U+FFFD. -/
def decode (text : Text) : Text := Utf8.decode (decodeOctets text)

end Notebook.Uri

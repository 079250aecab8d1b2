import Notebook.Json.Value
/-!
# JSON text

Two layouts: compact, without any blanks, and indented by one blank per level, where empty arrays
and objects stay on one line. Characters are written as they are, except for the quote, the
backslash and the control characters below the blank.
-/
namespace Notebook

/-- A hexadecimal digit, in lower case. -/
def hexDigit (n : Nat) : Char :=
  if n < 10 then Char.ofNat (0x30 + n) else Char.ofNat (0x61 + n - 10)

namespace Json

def escaped (c : Char) : Text :=
  if c = '"' then ['\\', '"']
  else if c = '\\' then ['\\', '\\']
  else if c = '\n' then ['\\', 'n']
  else if c = '\r' then ['\\', 'r']
  else if c = '\t' then ['\\', 't']
  else if c.toNat = 8 then ['\\', 'b']
  else if c.toNat = 12 then ['\\', 'f']
  else if c.toNat < 0x20 then
    ['\\', 'u', '0', '0', hexDigit (c.toNat / 16), hexDigit (c.toNat % 16)]
  else [c]

def quoted (text : Text) : Text := '"' :: (text.flatMap escaped ++ ['"'])

mutual

def compact : Json → Text
  | .null => "null"
  | .bool true => "true"
  | .bool false => "false"
  | .number n => n.text
  | .str s => quoted s
  | .arr [] => "[]"
  | .arr (item :: items) => '[' :: (compact item ++ compactItems items)
  | .obj [] => "\x7b\x7d"
  | .obj ((key, value) :: members) =>
    '{' :: (quoted key ++ ':' :: (compact value ++ compactMembers members))

/-- Further items of an array, and its end. -/
def compactItems : List Json → Text
  | [] => "]"
  | item :: items => ',' :: (compact item ++ compactItems items)

/-- Further members of an object, and its end. -/
def compactMembers : List (Text × Json) → Text
  | [] => "\x7d"
  | (key, value) :: members =>
    ',' :: (quoted key ++ ':' :: (compact value ++ compactMembers members))

end

/-- A line feed and the indentation of a level. -/
def newline (depth : Nat) : Text := '\n' :: List.replicate depth ' '

mutual

/-- Text indented by one blank per level, for a value at level `depth`. -/
def indented (depth : Nat) : Json → Text
  | .null => "null"
  | .bool true => "true"
  | .bool false => "false"
  | .number n => n.text
  | .str s => quoted s
  | .arr [] => "[]"
  | .arr (item :: items) =>
    '[' :: (newline (depth + 1) ++ indented (depth + 1) item ++ indentedItems depth items)
  | .obj [] => "\x7b\x7d"
  | .obj ((key, value) :: members) =>
    '{' :: (newline (depth + 1) ++ quoted key ++ ": " ++ indented (depth + 1) value ++
      indentedMembers depth members)

/-- Further items of an array at level `depth`, and its end. -/
def indentedItems (depth : Nat) : List Json → Text
  | [] => newline depth ++ "]"
  | item :: items =>
    ',' :: (newline (depth + 1) ++ indented (depth + 1) item ++ indentedItems depth items)

/-- Further members of an object at level `depth`, and its end. -/
def indentedMembers (depth : Nat) : List (Text × Json) → Text
  | [] => newline depth ++ "\x7d"
  | (key, value) :: members =>
    ',' :: (newline (depth + 1) ++ quoted key ++ ": " ++ indented (depth + 1) value ++
      indentedMembers depth members)

end

end Json

end Notebook

import Notebook.Json.Value
/-!
# Reading JSON text

The reader keeps what was written: repeated members stay, and strings with half a surrogate pair
and numbers beyond the largest double are kept as unreadable. So a part of a document that nobody
looks at may hold such things, while `Tree.value?` refuses them wherever a value is wanted.
Everything else is strict: no blanks but the four of JSON, no control characters in strings, no
trailing text.
-/
namespace Notebook

inductive Json.Tree where
  | null
  | bool (b : Bool)
  /-- A number, or `none` for one beyond the largest double. -/
  | number (n : Option Number)
  /-- A string, or `none` for one with half a surrogate pair. -/
  | str (s : Option Text)
  | arr (items : List Json.Tree)
  | obj (members : List (Option Text × Json.Tree))

namespace Json

def isBlank (c : Char) : Bool := c = ' ' || c = '\n' || c = '\t' || c = '\r'

def skipBlanks (text : Text) : Text := text.dropWhile isBlank

/-! ## Strings -/

/-- A part of a string as it is written: a character, or a code unit in hexadecimal. -/
inductive Piece where
  | char (c : Char)
  | unit (u : Nat)

def hexValue? (c : Char) : Option Nat :=
  let n := c.toNat
  if 0x30 ≤ n ∧ n ≤ 0x39 then some (n - 0x30)
  else if 0x41 ≤ n ∧ n ≤ 0x46 then some (n - 0x41 + 10)
  else if 0x61 ≤ n ∧ n ≤ 0x66 then some (n - 0x61 + 10)
  else none

def codeUnit? (a b c d : Char) : Option Nat := do
  some (((← hexValue? a) * 16 + (← hexValue? b)) * 256 + (← hexValue? c) * 16 + (← hexValue? d))

/-- The character that a letter after a backslash stands for. -/
def shortEscape? (c : Char) : Option Char :=
  if c = '"' ∨ c = '\\' ∨ c = '/' then some c
  else if c = 'b' then some (Char.ofNat 8)
  else if c = 'f' then some (Char.ofNat 12)
  else if c = 'n' then some '\n'
  else if c = 'r' then some '\r'
  else if c = 't' then some '\t'
  else none

/-- The pieces of a string up to its closing quote, and the text after it. -/
def readPieces : Text → Option (List Piece × Text)
  | [] => none
  | '"' :: rest => some ([], rest)
  | '\\' :: 'u' :: a :: b :: c :: d :: rest => do
    let unit ← codeUnit? a b c d
    let (pieces, rest) ← readPieces rest
    some (.unit unit :: pieces, rest)
  | '\\' :: c :: rest => do
    let char ← shortEscape? c
    let (pieces, rest) ← readPieces rest
    some (.char char :: pieces, rest)
  | '\\' :: [] => none
  | c :: rest =>
    if c.toNat < 0x20 then none
    else do
      let (pieces, rest) ← readPieces rest
      some (.char c :: pieces, rest)

/-- The text of the pieces: a high surrogate needs a low one right after it, and a low one a high
one before it. -/
def joinPieces : List Piece → Option Text
  | [] => some []
  | .char c :: rest => do some (c :: (← joinPieces rest))
  | [.unit u] => if u < 0xD800 ∨ 0xDFFF < u then some [Char.ofNat u] else none
  | .unit u :: .unit v :: rest =>
    if u < 0xD800 ∨ 0xDFFF < u then do some (Char.ofNat u :: (← joinPieces (.unit v :: rest)))
    -- A high surrogate and a low one.
    else if u < 0xDC00 ∧ 0xDC00 ≤ v ∧ v ≤ 0xDFFF then do
      let scalar := 0x10000 + (u - 0xD800) * 0x400 + (v - 0xDC00)
      some (Char.ofNat scalar :: (← joinPieces rest))
    else none
  | .unit u :: .char c :: rest =>
    if u < 0xD800 ∨ 0xDFFF < u then do some (Char.ofNat u :: c :: (← joinPieces rest))
    else none

def readString (text : Text) : Option (Option Text × Text) := do
  let (pieces, rest) ← readPieces text
  some (joinPieces pieces, rest)

/-! ## Numbers -/

def isDigit (c : Char) : Bool := '0' ≤ c && c ≤ '9'

/-- The digits at the start of a text, and the text after them. -/
def readDigits (text : Text) : List Nat × Text :=
  ((text.takeWhile isDigit).map fun c => c.toNat - 0x30, text.dropWhile isDigit)

/-- The exponent of a number, if one follows. -/
def readExponent : Text → Option (Option (Bool × List Nat) × Text)
  | c :: rest =>
    if c = 'e' ∨ c = 'E' then
      let (sign, rest) := match rest with
        | '-' :: more => (true, more)
        | '+' :: more => (false, more)
        | more => (false, more)
      match readDigits rest with
      | ([], _) => none
      | (digits, rest) => some (some (sign, digits), rest)
    else some (none, c :: rest)
  | [] => some (none, [])

/-- The fraction of a number, if one follows. -/
def readFraction : Text → Option (Option (List Nat) × Text)
  | '.' :: rest => match readDigits rest with
    | ([], _) => none
    | (digits, rest) => some (some digits, rest)
  | rest => some (none, rest)

/-- A number: no leading zeros, and digits wherever the grammar asks for them. -/
def readNumeral (text : Text) : Option (Numeral × Text) := do
  let (isNegative, text) := match text with
    | '-' :: rest => (true, rest)
    | rest => (false, rest)
  let (whole, text) := readDigits text
  match whole with
  -- A zero in front of other digits is not a number.
  | [] | 0 :: _ :: _ => none
  | _ =>
    let (fraction, text) ← readFraction text
    let (exponent, text) ← readExponent text
    some ({ isNegative, whole, fraction, exponent }, text)

/-! ## Values -/

mutual

/-- The value at the start of a text, and the text after it. The fuel bounds nesting and length
together; twice the length of the text is enough. -/
def readValue : Nat → Text → Option (Tree × Text)
  | 0, _ => none
  | _ + 1, 'n' :: 'u' :: 'l' :: 'l' :: rest => some (.null, rest)
  | _ + 1, 't' :: 'r' :: 'u' :: 'e' :: rest => some (.bool true, rest)
  | _ + 1, 'f' :: 'a' :: 'l' :: 's' :: 'e' :: rest => some (.bool false, rest)
  | _ + 1, '"' :: rest => do
    let (s, rest) ← readString rest
    some (.str s, rest)
  | fuel + 1, '[' :: rest => match skipBlanks rest with
    | ']' :: rest => some (.arr [], rest)
    | rest => do
      let (items, rest) ← readItems fuel rest
      some (.arr items, rest)
  | fuel + 1, '{' :: rest => match skipBlanks rest with
    | '}' :: rest => some (.obj [], rest)
    | rest => do
      let (members, rest) ← readMembers fuel rest
      some (.obj members, rest)
  | _ + 1, text => do
    let (numeral, rest) ← readNumeral text
    some (.number numeral.number?, rest)

/-- One or more items and the end of their array. -/
def readItems : Nat → Text → Option (List Tree × Text)
  | 0, _ => none
  | fuel + 1, text => do
    let (item, rest) ← readValue fuel (skipBlanks text)
    match skipBlanks rest with
    | ',' :: rest =>
      let (items, rest) ← readItems fuel rest
      some (item :: items, rest)
    | ']' :: rest => some ([item], rest)
    | _ => none

/-- One or more members and the end of their object. -/
def readMembers : Nat → Text → Option (List (Option Text × Tree) × Text)
  | 0, _ => none
  | fuel + 1, text => do
    match skipBlanks text with
    | '"' :: rest =>
      let (key, rest) ← readString rest
      match skipBlanks rest with
      | ':' :: rest =>
        let (value, rest) ← readValue fuel (skipBlanks rest)
        match skipBlanks rest with
        | ',' :: rest =>
          let (members, rest) ← readMembers fuel rest
          some ((key, value) :: members, rest)
        | '}' :: rest => some ([(key, value)], rest)
        | _ => none
      | _ => none
    | _ => none

end

/-- The document that a text consists of. -/
def readTree (text : Text) : Option Tree := do
  let (tree, rest) ← readValue (2 * text.length + 2) (skipBlanks text)
  if skipBlanks rest = [] then some tree else none

/-! ## From documents to values -/

mutual

/-- The value of a document in which arrays and objects nest at most `depth` deep. -/
def Tree.value? (depth : Nat) : Tree → Option Json
  | .null => some .null
  | .bool b => some (.bool b)
  | .number n => n.map Json.number
  | .str s => s.map Json.str
  | .arr items => match depth with
    | 0 => none
    | depth + 1 => (Tree.values? depth items).map Json.arr
  | .obj members => match depth with
    | 0 => none
    | depth + 1 => (Tree.members? depth members).map Json.object

def Tree.values? (depth : Nat) : List Tree → Option (List Json)
  | [] => some []
  | tree :: rest => do some ((← Tree.value? depth tree) :: (← Tree.values? depth rest))

/-- The members of an object, in the order in which they are written. -/
def Tree.members? (depth : Nat) : List (Option Text × Tree) → Option (List (Text × Json))
  | [] => some []
  | (key, tree) :: rest => do
    some ((← key, ← Tree.value? depth tree) :: (← Tree.members? depth rest))

end

/-- Deepest nesting of arrays and objects in a value that is read. -/
def maxDepth : Nat := 127

def read? (text : Text) : Option Json := do (← readTree text).value? maxDepth

end Json

end Notebook

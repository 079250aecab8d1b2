import Notebook.Text.Lines
import Notebook.Text.WidthTables
/-!
# Columns of a text

How many terminal columns a text takes up. Most characters take up one column each, wide ones
two, and marks none. Some sequences take up less than the sum of their characters: a carriage
return before a line feed, emoji built from several characters, and ligatures of some scripts.

The text is read from its end. What stands behind a character decides what it adds, so each
character is given a note about what was read last.
-/
namespace Notebook

namespace Width

/-- A character lies in one of the ranges. -/
def isIn (ranges : List (Nat × Nat)) (c : Char) : Bool :=
  ranges.any fun range => range.1 ≤ c.toNat && c.toNat ≤ range.2

def between (low high : Nat) (c : Char) : Bool := low ≤ c.toNat && c.toNat ≤ high

/-- Columns of a character that stands alone. -/
def ofChar (c : Char) : Nat :=
  if c.toNat < 0xA1 then 1
  else if c.toNat = 0x17D8 then 3
  else if isIn zeroRanges c then 0
  else if isIn wideRanges c then 2
  else 1

/-- What stands behind the character that is being read. -/
inductive Behind where
  | nothing
  | lineFeed
  /-- The selector that makes an emoji of the character before it. -/
  | emojiSelector
  /-- The same, in front of a joiner and an emoji. -/
  | joinedEmojiSelector
  /-- The selector that makes text of the character before it. -/
  | textSelector
  /-- An emoji that a joiner can attach to what stands before it. -/
  | emoji
  | joinedEmoji
  | modifier
  | indicator
  | indicators
  /-- An odd number of regional indicators in front of a joiner and an emoji. -/
  | oddJoinedIndicators
  | evenJoinedIndicators
  /-- An Arabic alef, with or without marks before it. -/
  | alef
  | lamed
  | joinedLamed
  /-- A Khmer letter that can stand below another. -/
  | subjoinedLetter
  | ya
  | joinedYa
  /-- The Buginese vowel i in front of a joiner and a ya. -/
  | vowelBeforeYa
  | consonant
  | joinedConsonant
  /-- The Tifinagh joiner in front of a consonant. -/
  | consonantJoiner
  /-- A tone letter of the Lisu script that can share the place of another. -/
  | toneLetter
  | orkhonI
  | joinedOrkhonI
  deriving DecidableEq, Repr

/-- A regional indicator; two of them are a flag. -/
def isIndicator (c : Char) : Bool := between 0x1F1E6 0x1F1FF c

def isModifier (c : Char) : Bool := between 0x1F3FB 0x1F3FF c

/-- An emoji, or a character that the selector makes one of. -/
def takesSelector (c : Char) : Bool := isIn textEmojiRanges c || isIn emojiRanges c

def isAlef (c : Char) : Bool :=
  isIn [(0x622, 0x623), (0x625, 0x625), (0x627, 0x627), (0x671, 0x673), (0x675, 0x675),
    (0x773, 0x774), (0x870, 0x882)] c

def isLam (c : Char) : Bool :=
  isIn [(0x644, 0x644), (0x6B5, 0x6B8), (0x76A, 0x76A), (0x8A6, 0x8A6), (0x8C7, 0x8C7)] c

/-- A Khmer letter that can stand below another. -/
def isSubjoinable (c : Char) : Bool :=
  isIn [(0x1780, 0x1782), (0x1784, 0x1787), (0x1789, 0x178C), (0x178E, 0x1793), (0x1795, 0x1798),
    (0x179B, 0x179D), (0x17A0, 0x17A0), (0x17A2, 0x17A2), (0x17A7, 0x17A7), (0x17AB, 0x17AC),
    (0x17AF, 0x17AF)] c

def isConsonant (c : Char) : Bool := isIn [(0x2D31, 0x2D65), (0x2D6F, 0x2D6F)] c

/-- What a character means to the one before it, if it stands alone. -/
def noteOf (c : Char) : Behind :=
  if c = '\n' then .lineFeed
  else if c.toNat < 0xA1 then .nothing
  else if c.toNat = 0xFE0F then .emojiSelector
  else if c.toNat = 0xFE0E then .textSelector
  else if isIndicator c then .indicator
  else if isModifier c then .modifier
  else if isIn emojiRanges c then .emoji
  else if isAlef c then .alef
  else if c.toNat = 0x5DC then .lamed
  else if isSubjoinable c then .subjoinedLetter
  else if c.toNat = 0x1A10 then .ya
  else if isConsonant c then .consonant
  else if between 0xA4FC 0xA4FD c then .toneLetter
  else if c.toNat = 0x10C03 then .orkhonI
  else .nothing

/-- A character on its own: its columns and what it means to the one before it. -/
def alone (c : Char) : Int × Behind := (ofChar c, noteOf c)

/-- A joiner does not add columns; it ties what stands behind it to what comes before. -/
def joined : Behind → Behind
  | .emoji | .indicators | .evenJoinedIndicators | .oddJoinedIndicators | .modifier => .joinedEmoji
  | .lamed => .joinedLamed
  | .ya => .joinedYa
  | .consonant => .joinedConsonant
  | .orkhonI => .joinedOrkhonI
  | .joinedLamed => .joinedLamed
  | .joinedYa => .joinedYa
  | .vowelBeforeYa => .vowelBeforeYa
  | .joinedConsonant => .joinedConsonant
  | .consonantJoiner => .consonantJoiner
  | .joinedOrkhonI => .joinedOrkhonI
  | _ => .nothing

/-- A character in front of a joiner and an emoji. -/
def beforeJoinedEmoji (c : Char) : Int × Behind :=
  if isIndicator c then (1, .oddJoinedIndicators)
  else if isModifier c then (0, .modifier)
  else if isIn emojiRanges c then (0, .emoji)
  else alone c

/-- What a character adds and what it means to the one before it. -/
def step (c : Char) (behind : Behind) : Int × Behind :=
  if c.toNat = 0xFE0F then
    (0, if behind = .joinedEmoji then .joinedEmojiSelector else .emojiSelector)
  else if c.toNat = 0xFE0E then (0, .textSelector)
  else if c.toNat = 0x200D then (0, joined behind)
  else match behind with
  | .lineFeed => if c = '\r' then (0, .nothing) else alone c
  | .emojiSelector => if takesSelector c then (2, .emoji) else alone c
  -- The columns were counted with the emoji behind the joiner.
  | .joinedEmojiSelector => if takesSelector c then (0, .emoji) else beforeJoinedEmoji c
  | .textSelector => if isIn textFormRanges c then (1, .nothing) else alone c
  | .modifier => if isIn modifiableRanges c then (0, .emoji) else alone c
  | .joinedEmoji => beforeJoinedEmoji c
  | .indicator => if isIndicator c then (1, .indicators) else alone c
  | .indicators => if isIndicator c then (1, .indicators) else alone c
  | .oddJoinedIndicators => if isIndicator c then (-1, .evenJoinedIndicators) else alone c
  | .evenJoinedIndicators => if isIndicator c then (3, .oddJoinedIndicators) else alone c
  | .alef =>
    if isLam c then (0, .nothing)
    -- Marks may stand between the two letters of the ligature.
    else if ofChar c = 0 ∧ noteOf c = .nothing ∧ c.toNat ≠ 0x200C then (0, .alef)
    else alone c
  | .joinedLamed => if c.toNat = 0x5D0 then (0, .nothing) else alone c
  -- The letter was counted when it was read, and now turns out to stand below.
  | .subjoinedLetter => if c.toNat = 0x17D2 then (-1, .nothing) else alone c
  | .joinedYa => if c.toNat = 0x1A17 then (0, .vowelBeforeYa) else alone c
  | .vowelBeforeYa => if c.toNat = 0x1A15 then (0, .nothing) else alone c
  | .consonant => if c.toNat = 0x2D7F then (1, .consonantJoiner) else alone c
  | .joinedConsonant =>
    if c.toNat = 0x2D7F then (1, .consonantJoiner)
    else if isConsonant c then (0, .nothing)
    else alone c
  | .consonantJoiner => if isConsonant c then (-1, .nothing) else alone c
  | .toneLetter => if between 0xA4F8 0xA4FB c then (0, .nothing) else alone c
  | .joinedOrkhonI => if c.toNat = 0x10C32 then (0, .nothing) else alone c
  | .nothing | .emoji | .lamed | .ya | .orkhonI => alone c

/-- Columns of a text and what its first character means to one before it. -/
def fromEnd : Text → Int × Behind
  | [] => (0, .nothing)
  | c :: rest =>
    let (columns, behind) := fromEnd rest
    let (added, note) := step c behind
    (columns + added, note)

end Width

def Text.columns (text : Text) : Nat := (Width.fromEnd text).1.toNat

end Notebook

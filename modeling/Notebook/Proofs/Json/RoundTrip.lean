import Notebook.Json.Write
import Notebook.Json.Read
/-!
# What is written is read back

A value whose numbers are integers is written so that its text, in the indented layout, reads as the
same value again, whatever follows. Strings come back character by character and integers digit by
digit; of the fuel that bounds the reader, as much as the text is long suffices.
-/
namespace Notebook

namespace Json

/-! ## Strings -/

/-- The piece stands for the character. -/
def Piece.Spells : Piece → Char → Prop
  | .char c, other => c = other
  | .unit u, other => u = other.toNat ∧ u < 0xD800

theorem joinPieces_cons {piece : Piece} {c : Char} (spells : piece.Spells c) (pieces : List Piece) :
    joinPieces (piece :: pieces) = (joinPieces pieces).map (c :: ·) := by
  cases piece with
  | char other =>
    obtain rfl : other = c := spells
    rw [joinPieces]
    cases joinPieces pieces <;> rfl
  | unit u =>
    obtain ⟨rfl, low⟩ := spells
    -- A unit written for a control character is no surrogate, so it never pairs with the next piece.
    have plain : c.toNat < 0xD800 ∨ 0xDFFF < c.toNat := .inl low
    cases pieces with
    | nil => simp [joinPieces, plain]
    | cons next rest =>
      cases next with
      | char other =>
        rw [joinPieces, joinPieces, if_pos plain]
        cases joinPieces rest <;> simp
      | unit v =>
        rw [joinPieces, if_pos plain]
        cases joinPieces (.unit v :: rest) <;> simp

/-- A character is written as a letter after a backslash, by its number, or as it is. -/
theorem escaped_cases (c : Char) :
    (∃ letter, escaped c = ['\\', letter] ∧ letter ≠ 'u' ∧ shortEscape? letter = some c) ∨
    (c.toNat < 0x20 ∧ escaped c =
      ['\\', 'u', '0', '0', hexDigit (c.toNat / 16), hexDigit (c.toNat % 16)]) ∨
    (0x20 ≤ c.toNat ∧ c ≠ '"' ∧ c ≠ '\\' ∧ escaped c = [c]) := by
  have same {n : Nat} (number : c.toNat = n) : Char.ofNat n = c := number ▸ c.ofNat_toNat
  unfold escaped
  split
  next quote => exact .inl ⟨'"', rfl, by decide, by rw [quote]; rfl⟩
  split
  next slash => exact .inl ⟨'\\', rfl, by decide, by rw [slash]; rfl⟩
  split
  next feed => exact .inl ⟨'n', rfl, by decide, feed ▸ rfl⟩
  split
  next back => exact .inl ⟨'r', rfl, by decide, back ▸ rfl⟩
  split
  next tab => exact .inl ⟨'t', rfl, by decide, tab ▸ rfl⟩
  split
  next number => exact .inl ⟨'b', rfl, by decide, congrArg some (same number)⟩
  split
  next number => exact .inl ⟨'f', rfl, by decide, congrArg some (same number)⟩
  split
  next low => exact .inr (.inl ⟨low, rfl⟩)
  next quote slash _ _ _ _ _ high => exact .inr (.inr ⟨Nat.le_of_not_lt high, quote, slash, rfl⟩)

theorem hexValue?_hexDigit : ∀ n < 16, hexValue? (hexDigit n) = some n := by decide

theorem codeUnit?_hexDigit {n : Nat} (low : n < 0x20) :
    codeUnit? '0' '0' (hexDigit (n / 16)) (hexDigit (n % 16)) = some n := by
  simp only [codeUnit?, hexValue?_hexDigit (n / 16) (by omega), hexValue?_hexDigit (n % 16) (by omega)]
  change some _ = some n
  congr 1
  change (0 * 16 + 0) * 256 + n / 16 * 16 + n % 16 = n
  omega

theorem readPieces_escaped (c : Char) : ∃ piece : Piece, piece.Spells c ∧ ∀ text,
    readPieces (escaped c ++ text) = (readPieces text).map fun read => (piece :: read.1, read.2) := by
  rcases escaped_cases c with ⟨letter, written, other, short⟩ | ⟨low, written⟩ |
    ⟨high, quote, slash, written⟩
  · refine ⟨.char c, rfl, fun text => ?_⟩
    rw [written, List.cons_append, List.cons_append, List.nil_append, readPieces, short]
    · cases readPieces text <;> rfl
    · exact fun _ _ _ _ _ same => absurd same other
  · refine ⟨.unit c.toNat, ⟨rfl, by omega⟩, fun text => ?_⟩
    rw [written]
    simp only [List.cons_append, List.nil_append, readPieces, codeUnit?_hexDigit low]
    cases readPieces text <;> rfl
  · refine ⟨.char c, rfl, fun text => ?_⟩
    rw [written, List.cons_append, List.nil_append, readPieces, if_neg (Nat.not_lt.mpr high)]
    · cases readPieces text <;> rfl
    · exact fun same => absurd same quote
    · exact fun _ _ _ _ _ same => absurd same slash
    · exact fun _ _ same => absurd same slash
    · exact fun same => absurd same slash

/-- A text that was quoted is read up to its closing quote. -/
theorem readString_quoted (text rest : Text) :
    readString (text.flatMap escaped ++ '"' :: rest) = some (some text, rest) := by
  -- Reading takes the text apart into pieces, one for each character that was written, and joining
  -- them gives it back.
  have pieces : ∃ pieces, readPieces (text.flatMap escaped ++ '"' :: rest) = some (pieces, rest) ∧
      joinPieces pieces = some text := by
    induction text with
    | nil => exact ⟨[], rfl, rfl⟩
    | cons c more ih =>
      obtain ⟨pieces, read, joined⟩ := ih
      obtain ⟨piece, spells, first⟩ := readPieces_escaped c
      refine ⟨piece :: pieces, ?_, ?_⟩
      · rw [List.flatMap_cons, List.append_assoc, first, read]
        rfl
      · rw [joinPieces_cons spells, joined]
        rfl
  obtain ⟨pieces, read, joined⟩ := pieces
  rw [readString, read, ← joined]
  rfl

/-! ## Numbers -/

/-- The digits of a number, as the reader takes them. -/
def digitsOf (n : Nat) : List Nat := (Nat.toDigits 10 n).map fun c => c.toNat - 0x30

theorem toNat_digitChar : ∀ n < 10, n.digitChar.toNat - 0x30 = n := by decide

theorem digitsOf_eq (n : Nat) :
    digitsOf n = if n < 10 then [n] else digitsOf (n / 10) ++ [n % 10] := by
  rw [digitsOf, Nat.toDigits_eq_if (by decide)]
  split
  next one => rw [List.map_singleton, toNat_digitChar n one]
  next =>
    rw [List.map_append, List.map_singleton, toNat_digitChar _ (Nat.mod_lt _ (by decide))]
    rfl

theorem digitsValue_digitsOf (n : Nat) : Numeral.digitsValue (digitsOf n) = n := by
  -- The last digit is taken away until one is left.
  induction n using Nat.strongRecOn with
  | ind n ih =>
    rw [digitsOf_eq]
    split
    next => exact Nat.zero_add n
    next several =>
      rw [Numeral.digitsValue, List.foldl_append]
      change Numeral.digitsValue (digitsOf (n / 10)) * 10 + n % 10 = n
      rw [ih (n / 10) (by omega)]
      omega

/-- Only zero itself begins with a zero. -/
theorem digitsOf_cases (n : Nat) : ∃ first rest, digitsOf n = first :: rest ∧ (first = 0 → rest = []) := by
  induction n using Nat.strongRecOn with
  | ind n ih =>
    rw [digitsOf_eq]
    split
    next => exact ⟨n, [], rfl, fun _ => rfl⟩
    next several =>
      obtain ⟨first, rest, digits, zero⟩ := ih (n / 10) (by omega)
      refine ⟨first, rest ++ [n % 10], by rw [digits, List.cons_append], fun none => ?_⟩
      have value := digitsValue_digitsOf (n / 10)
      rw [digits, zero none, none] at value
      have : n / 10 = 0 := value.symm
      omega

theorem le_foldl_digits (digits : List Nat) (n : Nat) :
    n ≤ digits.foldl (fun n d => n * 10 + d) n := by
  induction digits generalizing n with
  | nil => exact Nat.le_refl n
  | cons d rest ih => exact Nat.le_trans (by omega) (ih (n * 10 + d))

/-- Digits of a number of 64 bits are all taken up. -/
theorem absorb_eq {digits : List Nat} {n : Nat}
    (fits : digits.foldl (fun n d => n * 10 + d) n < Nat.pow 2 64) :
    Numeral.absorb n digits = (digits.foldl (fun n d => n * 10 + d) n, digits.length) := by
  induction digits generalizing n with
  | nil => rfl
  | cons d rest ih =>
    have below : n * 10 + d < Nat.pow 2 64 := Nat.lt_of_le_of_lt (le_foldl_digits rest _) fits
    rw [Numeral.absorb, if_neg (Nat.not_le.mpr below), ih fits]
    rfl

theorem absorb_digitsOf {n : Nat} (fits : n < Nat.pow 2 64) :
    Numeral.absorb 0 (digitsOf n) = (n, (digitsOf n).length) := by
  have value : (digitsOf n).foldl (fun n d => n * 10 + d) 0 = n := digitsValue_digitsOf n
  rw [absorb_eq (value.symm ▸ fits), value]

/-- The text goes on after a value: with a comma, or on the next line. -/
def Goes (text : Text) : Prop := ∃ c rest, text = c :: rest ∧ (c = ',' ∨ c = '\n')

theorem isDigit_of_mem {n : Nat} {c : Char} (member : c ∈ Nat.toDigits 10 n) : isDigit c = true := by
  have digit := Nat.isDigit_of_mem_toDigits (by decide) (by decide) member
  simp only [Char.isDigit, Bool.and_eq_true, decide_eq_true_eq] at digit
  exact Bool.and_eq_true_iff.mpr ⟨decide_eq_true digit.1, decide_eq_true digit.2⟩

theorem readDigits_toDigits {rest : Text} (goes : Goes rest) (n : Nat) :
    readDigits (Nat.toDigits 10 n ++ rest) = (digitsOf n, rest) := by
  have digits : ∀ c ∈ Nat.toDigits 10 n, isDigit c = true := fun c => isDigit_of_mem
  obtain ⟨c, more, rfl, ends⟩ := goes
  have other : isDigit c = false := by rcases ends with rfl | rfl <;> decide
  rw [readDigits, List.takeWhile_append_of_pos digits, List.dropWhile_append_of_pos digits,
    List.takeWhile_cons_of_neg (by simp [other]), List.dropWhile_cons_of_neg (by simp [other]),
    List.append_nil]
  rfl

/-- What is read after the sign of a number. -/
def readUnsigned (isNegative : Bool) (text : Text) : Option (Numeral × Text) :=
  let (whole, text) := readDigits text
  match whole with
  | [] | 0 :: _ :: _ => none
  | _ => do
    let (fraction, text) ← readFraction text
    let (exponent, text) ← readExponent text
    some ({ isNegative, whole, fraction, exponent }, text)

theorem readNumeral_minus (text : Text) : readNumeral ('-' :: text) = readUnsigned true text := rfl

theorem readNumeral_plain {c : Char} (digit : isDigit c = true) (text : Text) :
    readNumeral (c :: text) = readUnsigned false (c :: text) := by
  unfold readNumeral
  split
  next isNegative more sign =>
    split at sign
    next minus =>
      cases minus
      cases digit
    next =>
      cases sign
      rfl

/-- Neither a fraction nor an exponent follows. -/
theorem readUnsigned_digits {rest : Text} (goes : Goes rest) (isNegative : Bool) (n : Nat) :
    readUnsigned isNegative (Nat.toDigits 10 n ++ rest) =
      some (⟨isNegative, digitsOf n, none, none⟩, rest) := by
  obtain ⟨first, others, digits, zero⟩ := digitsOf_cases n
  have fraction : readFraction rest = some (none, rest) := by
    obtain ⟨c, more, rfl, rfl | rfl⟩ := goes <;> rfl
  have exponent : readExponent rest = some (none, rest) := by
    obtain ⟨c, more, rfl, rfl | rfl⟩ := goes <;> rfl
  simp only [readUnsigned, readDigits_toDigits goes]
  split
  next none => simp [digits] at none
  next d e leading =>
    rw [digits, List.cons.injEq] at leading
    rw [zero leading.1] at leading
    cases leading.2
  next => simp [fraction, exponent]

end Json

/-- It is written as an integer of 64 bits, and stands for that. -/
def Number.Integral : Number → Prop
  | natural n => n < Nat.pow 2 64
  | negative n => 0 < n ∧ n ≤ Nat.pow 2 63
  | double _ => False

namespace Json

theorem number?_digits {n : Nat} (fits : n < Nat.pow 2 64) (isNegative : Bool) :
    Numeral.number? ⟨isNegative, digitsOf n, none, none⟩ =
      if isNegative = false then some (.natural n)
      else if 0 < n ∧ n ≤ Nat.pow 2 63 then some (.negative n)
      else (Double.ofNat? n).map fun x => .double (x.withSign true) := by
  simp [Numeral.number?, absorb_digitsOf fits]

theorem readNumeral_text {number : Number} (integral : number.Integral) {rest : Text}
    (goes : Goes rest) :
    ∃ numeral, readNumeral (number.text ++ rest) = some (numeral, rest) ∧
      numeral.number? = some number := by
  cases number with
  | natural n =>
    refine ⟨_, ?_, (number?_digits integral false).trans (if_pos rfl)⟩
    rw [← readUnsigned_digits goes false n]
    change readNumeral (Nat.toDigits 10 n ++ rest) = _
    cases digits : Nat.toDigits 10 n with
    | nil => exact absurd digits Nat.toDigits_ne_nil
    | cons c more => exact readNumeral_plain (isDigit_of_mem (digits ▸ List.mem_cons_self)) _
  | negative n =>
    have fits : n < Nat.pow 2 64 := Nat.lt_of_le_of_lt integral.2 (by decide)
    refine ⟨_, (readNumeral_minus _).trans (readUnsigned_digits goes true n), ?_⟩
    rw [number?_digits fits, if_neg nofun]
    exact if_pos integral
  | double => cases integral

/-! ## Values -/

mutual

/-- The document that a value is written as. -/
def tree : Json → Tree
  | .null => .null
  | .bool b => .bool b
  | .number n => .number (some n)
  | .str s => .str (some s)
  | .arr items => .arr (itemTrees items)
  | .obj members => .obj (memberTrees members)

def itemTrees : List Json → List Tree
  | [] => []
  | item :: items => tree item :: itemTrees items

def memberTrees : List (Text × Json) → List (Option Text × Tree)
  | [] => []
  | (key, value) :: members => (some key, tree value) :: memberTrees members

end

mutual

/-- All numbers are integers of 64 bits, and arrays and objects nest at most `depth` deep. -/
def Fits (depth : Nat) : Json → Prop
  | .number n => n.Integral
  | .arr items => ∃ inner, depth = inner + 1 ∧ ItemsFit inner items
  | .obj members => ∃ inner, depth = inner + 1 ∧ MembersFit inner members
  | _ => True

def ItemsFit (depth : Nat) : List Json → Prop
  | [] => True
  | item :: items => Fits depth item ∧ ItemsFit depth items

def MembersFit (depth : Nat) : List (Text × Json) → Prop
  | [] => True
  | (_, value) :: members => Fits depth value ∧ MembersFit depth members

end

instance (number : Number) : Decidable number.Integral :=
  match number with
  | .natural n => inferInstanceAs (Decidable (n < Nat.pow 2 64))
  | .negative n => inferInstanceAs (Decidable (0 < n ∧ n ≤ Nat.pow 2 63))
  | .double _ => isFalse id

mutual

instance decidableFits : (depth : Nat) → (value : Json) → Decidable (value.Fits depth)
  | _, .number n => inferInstanceAs (Decidable n.Integral)
  | 0, .arr _ => isFalse fun ⟨_, zero, _⟩ => Nat.noConfusion zero
  | depth + 1, .arr items =>
    @decidable_of_iff _ (ItemsFit depth items)
      ⟨fun fits => ⟨depth, rfl, fits⟩, fun ⟨_, same, fits⟩ => Nat.succ.inj same ▸ fits⟩
      (decidableItemsFit depth items)
  | 0, .obj _ => isFalse fun ⟨_, zero, _⟩ => Nat.noConfusion zero
  | depth + 1, .obj members =>
    @decidable_of_iff _ (MembersFit depth members)
      ⟨fun fits => ⟨depth, rfl, fits⟩, fun ⟨_, same, fits⟩ => Nat.succ.inj same ▸ fits⟩
      (decidableMembersFit depth members)
  | _, .null | _, .bool _ | _, .str _ => isTrue trivial

instance decidableItemsFit : (depth : Nat) → (items : List Json) → Decidable (ItemsFit depth items)
  | _, [] => isTrue trivial
  | depth, item :: items =>
    @instDecidableAnd _ _ (decidableFits depth item) (decidableItemsFit depth items)

instance decidableMembersFit : (depth : Nat) → (members : List (Text × Json)) →
    Decidable (MembersFit depth members)
  | _, [] => isTrue trivial
  | depth, (_, value) :: members =>
    @instDecidableAnd _ _ (decidableFits depth value) (decidableMembersFit depth members)

end

theorem skipBlanks_newline (depth : Nat) (text : Text) :
    skipBlanks (newline depth ++ text) = skipBlanks text := by
  have blanks : ∀ c ∈ newline depth, isBlank c = true := by
    intro c member
    rcases List.mem_cons.mp member with rfl | member
    · rfl
    · rw [(List.mem_replicate.mp member).2]
      rfl
  exact List.dropWhile_append_of_pos blanks

theorem skipBlanks_cons {c : Char} (visible : isBlank c = false) (text : Text) :
    skipBlanks (c :: text) = c :: text :=
  List.dropWhile_cons_of_neg (by simp [visible])

theorem text_head {number : Number} (integral : number.Integral) :
    ∃ c more, number.text = c :: more ∧ (isDigit c = true ∨ c = '-') := by
  cases number with
  | natural n =>
    cases digits : Nat.toDigits 10 n with
    | nil => exact absurd digits Nat.toDigits_ne_nil
    | cons c more => exact ⟨c, more, digits, .inl (isDigit_of_mem (digits ▸ List.mem_cons_self))⟩
  | negative n => exact ⟨'-', _, rfl, .inr rfl⟩
  | double => cases integral

theorem ne_of_text_head {c : Char} (first : isDigit c = true ∨ c = '-') (other : Char)
    (neither : isDigit other = false ∧ other ≠ '-') : c ≠ other := by
  rintro rfl
  simp [neither] at first

/-- No value begins with a blank, or like the end of an array. -/
theorem indented_head {bound : Nat} {value : Json} (fits : value.Fits bound) (depth : Nat) :
    ∃ c more, value.indented depth = c :: more ∧ isBlank c = false ∧ c ≠ ']' := by
  cases value with
  | null => exact ⟨'n', _, rfl, rfl, by decide⟩
  | bool b => cases b <;> exact ⟨_, _, rfl, rfl, by decide⟩
  | number n =>
    obtain ⟨c, more, text, first⟩ := text_head fits
    refine ⟨c, more, text, ?_, ne_of_text_head first ']' (by decide)⟩
    simp [isBlank, ne_of_text_head first ' ' (by decide), ne_of_text_head first '\n' (by decide),
      ne_of_text_head first '\t' (by decide), ne_of_text_head first '\r' (by decide)]
  | str s => exact ⟨'"', _, rfl, rfl, by decide⟩
  | arr items => cases items <;> exact ⟨'[', _, rfl, rfl, by decide⟩
  | obj members => cases members <;> exact ⟨'\x7b', _, rfl, rfl, by decide⟩

theorem skipBlanks_indented {bound : Nat} {value : Json} (fits : value.Fits bound) (depth : Nat)
    (rest : Text) :
    skipBlanks (value.indented depth ++ rest) = value.indented depth ++ rest := by
  obtain ⟨c, more, text, visible, -⟩ := indented_head fits depth
  rw [text, List.cons_append]
  exact skipBlanks_cons visible _

theorem goes_indentedItems (depth : Nat) (items : List Json) (rest : Text) :
    Goes (indentedItems depth items ++ rest) := by
  cases items with
  | nil => exact ⟨'\n', _, rfl, .inr rfl⟩
  | cons item items => exact ⟨',', _, rfl, .inl rfl⟩

theorem goes_indentedMembers (depth : Nat) (members : List (Text × Json)) (rest : Text) :
    Goes (indentedMembers depth members ++ rest) := by
  rcases members with _ | ⟨⟨key, value⟩, members⟩
  · exact ⟨'\n', _, rfl, .inr rfl⟩
  · exact ⟨',', _, rfl, .inl rfl⟩

/-! ### One step of the reader -/

theorem readValue_number {number : Number} (integral : number.Integral) {rest : Text}
    (goes : Goes rest) (fuel : Nat) :
    readValue (fuel + 1) (number.text ++ rest) = some (.number (some number), rest) := by
  obtain ⟨numeral, read, value⟩ := readNumeral_text integral goes
  obtain ⟨c, more, text, first⟩ := text_head integral
  rw [text, List.cons_append] at read ⊢
  -- The reader looks for every other kind of value first.
  have begins {other : Char} (same : ∃ more', c :: (more ++ rest) = other :: more')
      (neither : isDigit other = false ∧ other ≠ '-') : False :=
    ne_of_text_head first other neither (List.cons.inj same.choose_spec).1
  rw [readValue, read]
  · rw [← value]
    rfl
  all_goals exact fun _ same => begins ⟨_, same⟩ (by decide)

theorem readValue_arr {text : Text} {c : Char} {more : Text} (first : skipBlanks text = c :: more)
    (other : c ≠ ']') (fuel : Nat) :
    readValue (fuel + 1) ('[' :: text) =
      (readItems fuel (c :: more)).map fun read => (.arr read.1, read.2) := by
  rw [readValue, first]
  split
  next same => exact absurd (List.cons.inj same).1 other
  next => cases readItems fuel (c :: more) <;> rfl

theorem readValue_obj {text : Text} {c : Char} {more : Text} (first : skipBlanks text = c :: more)
    (other : c ≠ '\x7d') (fuel : Nat) :
    readValue (fuel + 1) ('\x7b' :: text) =
      (readMembers fuel (c :: more)).map fun read => (.obj read.1, read.2) := by
  rw [readValue, first]
  split
  next same => exact absurd (List.cons.inj same).1 other
  next => cases readMembers fuel (c :: more) <;> rfl

/-- After an item either a comma and more items follow, or the array ends. -/
theorem readItems_step {fuel : Nat} {text rest : Text} {item : Tree}
    (read : readValue fuel (skipBlanks text) = some (item, rest)) :
    (∀ more, skipBlanks rest = ',' :: more → readItems (fuel + 1) text =
      (readItems fuel more).map fun read => (item :: read.1, read.2)) ∧
    ∀ more, skipBlanks rest = ']' :: more → readItems (fuel + 1) text = some ([item], more) := by
  rw [readItems, read]
  refine ⟨fun more comma => ?_, fun more stop => ?_⟩
  · simp only [Option.bind_eq_bind, Option.bind_some, comma]
    cases readItems fuel more <;> rfl
  · simp only [Option.bind_eq_bind, Option.bind_some, stop]

theorem readMembers_step {fuel : Nat} {text rest : Text} {key : Text} {value : Tree}
    {after : Text} (named : skipBlanks text = quoted key ++ ": " ++ rest)
    (read : readValue fuel (skipBlanks rest) = some (value, after)) :
    (∀ more, skipBlanks after = ',' :: more → readMembers (fuel + 1) text =
      (readMembers fuel more).map fun read => ((some key, value) :: read.1, read.2)) ∧
    ∀ more, skipBlanks after = '\x7d' :: more →
      readMembers (fuel + 1) text = some ([(some key, value)], more) := by
  have whole : quoted key ++ ": " ++ rest =
      '"' :: (key.flatMap escaped ++ '"' :: ':' :: ' ' :: rest) := by
    simp [quoted]
  have colon : skipBlanks (':' :: ' ' :: rest) = ':' :: ' ' :: rest := rfl
  have blank : skipBlanks (' ' :: rest) = skipBlanks rest := rfl
  rw [readMembers, named, whole]
  simp only [readString_quoted, Option.bind_eq_bind, Option.bind_some, colon, blank, read]
  refine ⟨fun more comma => ?_, fun more stop => ?_⟩
  · simp only [comma]
    cases readMembers fuel more <;> rfl
  · simp only [stop]

/-! ### Whole values -/

theorem length_newline (depth : Nat) : (newline depth).length = depth + 1 := by
  simp [newline]

theorem skipBlanks_end (depth : Nat) {c : Char} (visible : isBlank c = false) (rest : Text) :
    skipBlanks (newline depth ++ [c] ++ rest) = c :: rest := by
  rw [List.append_assoc, skipBlanks_newline]
  exact skipBlanks_cons visible rest

theorem skipBlanks_item {bound : Nat} {item : Json} (fits : item.Fits bound) (depth : Nat)
    (more rest : Text) : skipBlanks (newline depth ++ item.indented depth ++ more ++ rest) =
      item.indented depth ++ (more ++ rest) := by
  rw [List.append_assoc, List.append_assoc, skipBlanks_newline, skipBlanks_indented fits]

theorem skipBlanks_member (depth : Nat) (key value more rest : Text) :
    skipBlanks (newline depth ++ quoted key ++ ": " ++ value ++ more ++ rest) =
      quoted key ++ ": " ++ (value ++ (more ++ rest)) := by
  simp only [List.append_assoc, skipBlanks_newline]
  exact skipBlanks_cons rfl _

theorem itemTrees_eq_map (items : List Json) : itemTrees items = items.map tree := by
  induction items with
  | nil => rfl
  | cons item items ih => rw [itemTrees, ih, List.map_cons]

mutual

/-- A value is read back from its text, and the reader stops where the text ends. -/
theorem readValue_indented {bound : Nat} (depth fuel : Nat) {rest : Text} (goes : Goes rest) :
    ∀ value : Json, value.Fits bound → (value.indented depth).length < fuel →
      readValue fuel (value.indented depth ++ rest) = some (value.tree, rest)
  | .null, _, enough => by
    obtain ⟨fuel, rfl⟩ := Nat.exists_eq_add_of_lt enough
    rfl
  | .bool b, _, enough => by
    obtain ⟨fuel, rfl⟩ := Nat.exists_eq_add_of_lt enough
    cases b <;> rfl
  | .number n, fits, enough => by
    obtain ⟨fuel, rfl⟩ := Nat.exists_eq_add_of_lt enough
    exact readValue_number fits goes _
  | .str s, _, enough => by
    obtain ⟨fuel, rfl⟩ := Nat.exists_eq_add_of_lt enough
    have whole : quoted s ++ rest = '"' :: (s.flatMap escaped ++ '"' :: rest) := by
      simp [quoted]
    rw [indented, whole, readValue, readString_quoted]
    rfl
  | .arr [], _, enough => by
    obtain ⟨fuel, rfl⟩ := Nat.exists_eq_add_of_lt enough
    rfl
  | .arr (item :: items), fits, enough => by
    obtain ⟨inner, rfl, first, others⟩ := fits
    simp only [indented, List.length_cons, List.length_append, length_newline] at enough ⊢
    -- One unit of fuel is spent on the bracket and one on the first item.
    obtain ⟨fuel, rfl⟩ : ∃ k, fuel = k + 1 + 1 := ⟨fuel - 2, by omega⟩
    obtain ⟨c, more, text, visible, other⟩ := indented_head first (depth + 1)
    have read := readValue_indented (depth + 1) fuel (goes_indentedItems depth items rest) item first
      (by omega)
    have start := skipBlanks_item first (depth + 1) (indentedItems depth items) rest
    rw [text, List.cons_append] at read start
    rw [text, List.cons_append, readValue_arr start other, readItems_indented depth fuel items others
      _ _ ((skipBlanks_cons visible _).symm ▸ read) (by omega)]
    rfl
  | .obj [], _, enough => by
    obtain ⟨fuel, rfl⟩ := Nat.exists_eq_add_of_lt enough
    rfl
  | .obj ((key, value) :: members), fits, enough => by
    obtain ⟨inner, rfl, first, others⟩ := fits
    simp only [indented, List.length_cons, List.length_append, length_newline] at enough ⊢
    obtain ⟨fuel, rfl⟩ : ∃ k, fuel = k + 1 + 1 := ⟨fuel - 2, by omega⟩
    have read := readValue_indented (depth + 1) fuel (goes_indentedMembers depth members rest) value
      first (by omega)
    have start := skipBlanks_member (depth + 1) key (value.indented (depth + 1))
      (indentedMembers depth members) rest
    rw [List.cons_append, readValue_obj start (by decide), readMembers_indented depth fuel members
      others (skipBlanks_cons rfl _) ((skipBlanks_indented first _ _).symm ▸ read) (by omega)]
    rfl

/-- Items are read that follow one. -/
theorem readItems_indented {bound : Nat} (depth fuel : Nat) {rest : Text} :
    ∀ items : List Json, ItemsFit bound items → ∀ (text : Text) (first : Tree),
      readValue fuel (skipBlanks text) = some (first, indentedItems depth items ++ rest) →
      (indentedItems depth items).length ≤ fuel →
      readItems (fuel + 1) text = some (first :: itemTrees items, rest)
  | [], _, text, first, read, _ => (readItems_step read).2 rest (skipBlanks_end depth rfl rest)
  | item :: items, ⟨fits, others⟩, text, first, read, enough => by
    simp only [indentedItems, List.length_cons, List.length_append, length_newline, List.cons_append]
      at enough read
    obtain ⟨fuel, rfl⟩ : ∃ k, fuel = k + 1 := ⟨fuel - 1, by omega⟩
    have next := readValue_indented (depth + 1) fuel (goes_indentedItems depth items rest) item fits
      (by omega)
    have start := skipBlanks_item fits (depth + 1) (indentedItems depth items) rest
    rw [(readItems_step read).1 _ (skipBlanks_cons rfl _),
      readItems_indented depth fuel items others _ item.tree (start.symm ▸ next) (by omega)]
    rfl

/-- Members are read that follow one. -/
theorem readMembers_indented {bound : Nat} (depth fuel : Nat) {rest : Text} :
    ∀ members : List (Text × Json), MembersFit bound members →
      ∀ {text after : Text} {key : Text} {value : Tree},
        skipBlanks text = quoted key ++ ": " ++ after →
        readValue fuel (skipBlanks after) = some (value, indentedMembers depth members ++ rest) →
        (indentedMembers depth members).length ≤ fuel →
        readMembers (fuel + 1) text = some ((some key, value) :: memberTrees members, rest)
  | [], _, _, _, _, _, named, read, _ =>
    (readMembers_step named read).2 rest (skipBlanks_end depth rfl rest)
  | (name, item) :: members, ⟨fits, others⟩, text, after, key, value, named, read, enough => by
    simp only [indentedMembers, List.length_cons, List.length_append, length_newline, List.cons_append]
      at enough read
    obtain ⟨fuel, rfl⟩ : ∃ k, fuel = k + 1 := ⟨fuel - 1, by omega⟩
    have next := readValue_indented (depth + 1) fuel (goes_indentedMembers depth members rest) item
      fits (by omega)
    have start := skipBlanks_member (depth + 1) name (item.indented (depth + 1))
      (indentedMembers depth members) rest
    rw [(readMembers_step named read).1 _ (skipBlanks_cons rfl _),
      readMembers_indented depth fuel members others start
        ((skipBlanks_indented fits _ _).symm ▸ next) (by omega)]
    rfl

end

/-- The document that a value is written as is read from its text. -/
theorem readTree_indented {bound : Nat} {value : Json} (fits : value.Fits bound) :
    readTree (value.indented 0 ++ ['\n']) = some value.tree := by
  have goes : Goes ['\n'] := ⟨'\n', [], rfl, .inr rfl⟩
  have read := readValue_indented 0 (2 * (value.indented 0 ++ ['\n']).length + 2) goes value fits
    (by rw [List.length_append]; omega)
  rw [readTree, skipBlanks_indented fits, read]
  rfl

end Json

end Notebook

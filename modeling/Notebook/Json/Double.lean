import Notebook.Text.Lines
/-!
# Binary floating-point numbers

The finite numbers of the 64-bit binary format, held exactly: a sign, a mantissa and a power of
two. Rounding is to the nearest number, ties to the even mantissa. Arithmetic goes through exact
ratios of natural numbers, so every operation is rounded once. The decimal text is the shortest
one that reads back as the same number.
-/
namespace Notebook

/-- The number `± mantissa * 2 ^ scale / 2 ^ 1074`. Either the scale is zero and the mantissa
below `2 ^ 53`, or the mantissa lies between `2 ^ 52` and `2 ^ 53`. -/
structure Double where
  /-- Sign; zero has one too. -/
  negative : Bool
  /-- Significant bits, at most 53 of them. -/
  mantissa : Nat
  /-- Power of two, counted from that of the smallest positive number. -/
  scale : Nat
  deriving DecidableEq, Repr

/-- The quotient `a / b` rounded to the nearest natural number, ties to even. -/
def halfEven (a b : Nat) : Nat :=
  let q := a / b
  let r := a % b
  if b < 2 * r ∨ (2 * r = b ∧ q % 2 = 1) then q + 1 else q

namespace Double

def zero (negative : Bool) : Double := ⟨negative, 0, 0⟩

def isZero (x : Double) : Bool := x.mantissa = 0

def withSign (x : Double) (negative : Bool) : Double := { x with negative }

/-- The number nearest to `num / den`, or `none` if that is beyond the largest one. -/
def ofRatio (num den : Nat) : Option Double :=
  let units := num * Nat.pow 2 1074
  let scale := (units / den).log2 - 52
  let mantissa := halfEven units (den * Nat.pow 2 scale)
  -- Rounding up may carry into a 54th bit.
  let carried :=
    if mantissa = Nat.pow 2 53 then (Nat.pow 2 52, scale + 1) else (mantissa, scale)
  if carried.2 ≤ 2045 then some ⟨false, carried.1, carried.2⟩ else none

/-- The number nearest to a natural number. -/
def ofNat? (n : Nat) : Option Double := ofRatio n 1

/-- Magnitude in units of the smallest positive number. -/
def units (x : Double) : Nat := x.mantissa * Nat.pow 2 x.scale

def mul (x y : Double) : Option Double :=
  ofRatio (x.units * y.units) (Nat.pow 2 2148)

def div (x y : Double) : Option Double := ofRatio x.units y.units

/-! ## Shortest decimal text -/

/-- The decimal exponent `k` with `10 ^ k ≤ num / den < 10 ^ (k + 1)`, for a positive ratio.
The fuel bounds the number of leading zeros after the point. -/
def decimalExponent (num den fuel : Nat) : Int :=
  if den ≤ num then ((Nat.toDigits 10 (num / den)).length : Int) - 1
  else match fuel with
    | 0 => 0
    | fuel + 1 => decimalExponent (num * 10) den fuel - 1

/-- The ratio `digits * 10 ^ exponent` as numerator and denominator. -/
def scaled (digits : Nat) (exponent : Int) : Nat × Nat :=
  if 0 ≤ exponent then (digits * Nat.pow 10 exponent.toNat, 1)
  else (digits, Nat.pow 10 (-exponent).toNat)

/-- Reads back as `x`, up to the sign. -/
def readsBack (x : Double) (digits : Nat) (exponent : Int) : Bool :=
  let ratio := scaled digits exponent
  ofRatio ratio.1 ratio.2 = some (x.withSign false)

/-- The `n`-digit decimal nearest to `x` among the two neighbours that read back as `x`. The
result is a digit string as a number; `exponent` is that of its last digit. -/
def nearestDigits (x : Double) (exponent : Int) : Option Nat :=
  let unit := scaled 1 exponent
  -- the magnitude of `x`, counted in units of the last digit, is `num / den`
  let num := x.units * unit.2
  let den := Nat.pow 2 1074 * unit.1
  let low := num / den
  let nearest := halfEven num den
  -- Numbers stand closer below a power of two, so the nearer one may be another number.
  let other := if nearest = low then low + 1 else low
  if readsBack x nearest exponent then some nearest
  else if readsBack x other exponent then some other
  else none

/-- The first number of digits, counting up from `count`, that suffices to read `x` back. -/
def shortestFrom (x : Double) (leading : Int) (count : Nat) : Nat → Nat × Int
  | 0 => (0, 0)
  | fuel + 1 =>
    let exponent := leading - count + 1
    match nearestDigits x exponent with
    | some digits => (digits, exponent)
    | none => shortestFrom x leading (count + 1) fuel

/-- Digits and exponent of the last digit, for a number other than zero. Seventeen digits always
suffice. -/
def shortest (x : Double) : Nat × Int :=
  shortestFrom x (decimalExponent x.units (Nat.pow 2 1074) 400) 1 17

def significant (digits : Nat) : Text :=
  ((Nat.toDigits 10 digits).reverse.dropWhile (· = '0')).reverse

/-- Positional text: at least one digit on either side of the point. -/
def positional (digits : Text) (exponent : Int) : Text :=
  if exponent < 0 then "0." ++ List.replicate (-exponent - 1).toNat '0' ++ digits
  else
    let whole := exponent.toNat + 1
    if digits.length ≤ whole then digits ++ List.replicate (whole - digits.length) '0' ++ ".0"
    else digits.take whole ++ "." ++ digits.drop whole

/-- Text with a decimal exponent, whose sign is always written. -/
def scientific (digits : Text) (exponent : Int) : Text :=
  let fraction := if digits.length ≤ 1 then [] else '.' :: digits.drop 1
  let sign : Text := if exponent < 0 then "e-" else "e+"
  digits.take 1 ++ fraction ++ sign ++ Nat.toDigits 10 exponent.natAbs

def magnitudeText (x : Double) : Text :=
  if x.isZero then "0.0"
  else
    let (digits, last) := x.shortest
    -- That of the first digit, as both notations count from there.
    let exponent := last + ((Nat.toDigits 10 digits).length : Int) - 1
    if -5 ≤ exponent ∧ exponent < 16 then positional (significant digits) exponent
    else scientific (significant digits) exponent

/-- Shortest text that reads back as the number: positional from `0.00001` up to sixteen digits
before the point, with an exponent outside. -/
def text (x : Double) : Text :=
  if x.negative then '-' :: x.magnitudeText else x.magnitudeText

end Double

end Notebook

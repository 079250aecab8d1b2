import Notebook.Json.Double
/-!
# JSON numbers

A number that is written as an integer and fits 64 bits is kept as an integer. Every other number
is a double. Reading keeps as many leading digits as fit 64 bits unsigned and scales them by one
power of ten, which is fast and not always the nearest double.
-/
namespace Notebook

inductive Number where
  /-- An integer from zero up, below `2 ^ 64`. -/
  | natural (n : Nat)
  /-- The integer `-n`, for `0 < n ≤ 2 ^ 63`. -/
  | negative (n : Nat)
  /-- Everything else, and minus zero. -/
  | double (x : Double)
  deriving DecidableEq, Repr

/-- A number as it is written: digits of the whole part, digits after the point, and the exponent
with its sign. The optional parts are absent or have at least one digit. -/
structure Numeral where
  isNegative : Bool
  whole : List Nat
  fraction : Option (List Nat)
  /-- A minus sign before the exponent, and its digits. -/
  exponent : Option (Bool × List Nat)
  deriving DecidableEq, Repr

namespace Numeral

/-- Take up digits as long as the result fits 64 bits. Gives the result and how many digits were
taken up. -/
def absorb (significand : Nat) : List Nat → Nat × Nat
  | [] => (significand, 0)
  | digit :: rest =>
    if Nat.pow 2 64 ≤ significand * 10 + digit then (significand, 0)
    else
      let (result, taken) := absorb (significand * 10 + digit) rest
      (result, taken + 1)

/-- The power of ten that a double nearest to it stands for; at most `10 ^ 308`. -/
def powerOfTen (k : Nat) : Option Double := Double.ofNat? (Nat.pow 10 k)

/-- Divide by `10 ^ 308` so many times, and then by a last power of ten. Zero stays zero. -/
def scaleDown (x : Double) (last : Nat) : Nat → Option Double
  | 0 => do x.div (← powerOfTen last)
  | times + 1 =>
    if x.isZero then some x
    else do scaleDown (← x.div (← powerOfTen 308)) last times

/-- Multiply by a power of ten; `none` beyond the largest double. -/
def scaleUp (x : Double) (k : Nat) : Option Double :=
  if k ≤ 308 then do x.mul (← powerOfTen k)
  else if x.isZero then some x
  else none

/-- A significand times a power of ten. -/
def scale (significand : Nat) (exponent : Int) : Option Double := do
  let x ← Double.ofNat? significand
  if 0 ≤ exponent then scaleUp x exponent.toNat
  else
    let k := (-exponent).toNat
    scaleDown x (k - (k - 1) / 308 * 308) ((k - 1) / 308)

/-- The value of a list of decimal digits. -/
def digitsValue (digits : List Nat) : Nat := digits.foldl (fun n d => n * 10 + d) 0

/-- The double a numeral with point, exponent or too many digits stands for. Digits of the
fraction that no longer fit are dropped; an exponent beyond 31 bits makes the number zero or is
refused. -/
def double? (numeral : Numeral) : Option Double := do
  let (leading, taken) := absorb 0 numeral.whole
  let (significand, decimals) := absorb leading (numeral.fraction.getD [])
  let shift : Int := (numeral.whole.length : Int) - taken - decimals
  match numeral.exponent with
  | none => (← scale significand shift).withSign numeral.isNegative
  | some (isNegative, digits) =>
    let size := digitsValue digits
    if Nat.pow 2 31 ≤ size then
      if significand = 0 ∨ isNegative then some (Double.zero numeral.isNegative) else none
    else
      let exponent : Int := if isNegative then shift - size else shift + size
      (← scale significand exponent).withSign numeral.isNegative

/-- The number a numeral stands for, or `none` if it is beyond the largest double. -/
def number? (numeral : Numeral) : Option Number :=
  let (n, taken) := absorb 0 numeral.whole
  if numeral.fraction.isNone && numeral.exponent.isNone && taken = numeral.whole.length then
    if !numeral.isNegative then some (.natural n)
    else if 0 < n ∧ n ≤ Nat.pow 2 63 then some (.negative n)
    else (Double.ofNat? n).map fun x => .double (x.withSign true)
  else numeral.double?.map .double

end Numeral

namespace Number

def text : Number → Text
  | natural n => Nat.toDigits 10 n
  | negative n => '-' :: Nat.toDigits 10 n
  | double x => x.text

end Number

end Notebook

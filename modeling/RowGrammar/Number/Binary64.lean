import RowGrammar.Text.CharClass
import RowGrammar.Text.Digits

/-!
# Binary floating point numbers

The finite numbers of the 64 bit binary format, kept exactly as a mantissa and an exponent, and the
number nearest to a decimal text.
-/

namespace RowGrammar

open RowGrammar.Text

/-- The number `mantissa * 2 ^ exponent`, negated if so marked.  The mantissa has at most 53 binary
digits, the exponent is at least -1074, and above -1074 the mantissa has exactly 53. -/
structure Binary64 where
  negative : Bool
  mantissa : Nat
  exponent : Int
  deriving DecidableEq, Repr

namespace Binary64

def minExponent : Int := -1074

def maxExponent : Int := 971

/-- The quotient rounded to the nearest whole number, to an even one from halfway. -/
def roundDiv (numerator denominator : Nat) : Nat :=
  let quotient := numerator / denominator
  let double := 2 * (numerator % denominator)
  if double < denominator ∨ (double = denominator ∧ quotient % 2 = 0) then quotient
  else quotient + 1

/-- The quotient of two numbers with the second one scaled by `2 ^ exponent`, rounded. -/
def roundScaled (numerator denominator : Nat) (exponent : Int) : Nat :=
  if exponent < 0 then roundDiv (numerator * Nat.pow 2 exponent.natAbs) denominator
  else roundDiv numerator (denominator * Nat.pow 2 exponent.natAbs)

/-- The exponent at which a positive quotient has 53 binary digits before the point, or the least
one if that is greater. -/
def exponentOf (numerator denominator : Nat) : Int :=
  let guess : Int := (numerator.log2 : Int) - (denominator.log2 : Int) - 52
  let exact : Int :=
    if Nat.pow 2 52 ≤
        (if guess < 0 then numerator * Nat.pow 2 guess.natAbs / denominator
          else numerator / (denominator * Nat.pow 2 guess.natAbs)) then guess
    else guess - 1
  max exact minExponent

/-- The number nearest to a quotient; none if that is beyond all of them. -/
def ofRatio? (negative : Bool) (numerator denominator : Nat) : Option Binary64 :=
  if numerator = 0 then some ⟨negative, 0, minExponent⟩
  else
    let exponent := exponentOf numerator denominator
    let mantissa := roundScaled numerator denominator exponent
    let (mantissa, exponent) :=
      if mantissa = Nat.pow 2 53 then (Nat.pow 2 52, exponent + 1) else (mantissa, exponent)
    if maxExponent < exponent then none else some ⟨negative, mantissa, exponent⟩

/-- The number nearest to `digits * 10 ^ exponent`. -/
def ofDecimal? (negative : Bool) (digits : List Char) (exponent : Int) : Option Binary64 :=
  let value := decimalValue digits
  if value = 0 then some ⟨negative, 0, minExponent⟩
  else if 400 < (digits.dropWhile (· == '0')).length + exponent then none
  else if (digits.length : Int) + exponent < -400 then some ⟨negative, 0, minExponent⟩
  else if exponent < 0 then ofRatio? negative value (Nat.pow 10 exponent.natAbs)
  else ofRatio? negative (value * Nat.pow 10 exponent.natAbs) 1

end Binary64

/-- A sign at the start of a text, and what follows it. -/
def splitSign : List Char → Bool × List Char
  | '-' :: chars => (true, chars)
  | '+' :: chars => (false, chars)
  | chars => (false, chars)

/-- The whole number that a text denotes: an optional sign and digits, within 64 bits. -/
def readInteger? (text : List Char) : Option Int :=
  let (negative, digits) := splitSign text
  if digits.isEmpty || !digits.all isAsciiDigit then none
  else
    let value : Int := decimalValue digits
    let value := if negative then -value else value
    if -(Nat.pow 2 63) ≤ value ∧ value < Nat.pow 2 63 then some value else none

/-- The exponent that a text denotes: nothing, or a letter and a whole number. -/
def readExponent? : List Char → Option Int
  | [] => some 0
  | c :: chars =>
      let (negative, digits) := splitSign chars
      if (c == 'e' || c == 'E') && !digits.isEmpty && digits.all isAsciiDigit then
        some (if negative then -(decimalValue digits : Int) else decimalValue digits)
      else none

/-- The finite number nearest to a decimal text: an optional sign, digits with an optional point
among them, and an optional exponent. -/
def readBinary64? (text : List Char) : Option Binary64 := do
  let (negative, chars) := splitSign text
  let whole := chars.takeWhile isAsciiDigit
  let rest := chars.dropWhile isAsciiDigit
  let (fraction, rest) :=
    match rest with
    | '.' :: rest => (rest.takeWhile isAsciiDigit, rest.dropWhile isAsciiDigit)
    | rest => ([], rest)
  guard (!(whole.isEmpty && fraction.isEmpty))
  let exponent ← readExponent? rest
  Binary64.ofDecimal? negative (whole ++ fraction) (exponent - fraction.length)

end RowGrammar

import RowGrammar.Number.Binary64

/-!
# Shortest decimal texts

A floating point number is written with the fewest digits that read back as the same number, and of
those with the digits nearest to it.
-/

namespace RowGrammar

open RowGrammar.Text

/-- Digits and the power of ten of the last one. -/
structure Decimal where
  digits : List Char
  exponent : Int
  deriving DecidableEq, Repr

namespace Decimal

/-- The digits without zeros at the end. -/
def normalize (number : Decimal) : Decimal :=
  let zeros := (number.digits.reverse.takeWhile (· == '0')).length
  ⟨number.digits.take (number.digits.length - zeros), number.exponent + zeros⟩

end Decimal

namespace Binary64

/-- A positive number and the numbers around it that round to it, as multiples of a common unit
`unit / scale`. -/
structure Interval where
  value : Nat
  low : Nat
  high : Nat
  /-- Whether the ends round to the number as well. -/
  closed : Bool
  unit : Nat
  scale : Nat

/-- The interval of a positive number: half a step to either side, and a quarter below a power of
two, under which the steps are smaller. -/
def interval (number : Binary64) : Interval :=
  let below := if number.mantissa = Nat.pow 2 52 ∧ minExponent < number.exponent then 1 else 2
  let exponent := number.exponent - 2
  { value := 4 * number.mantissa
    low := 4 * number.mantissa - below
    high := 4 * number.mantissa + 2
    closed := number.mantissa % 2 = 0
    unit := if exponent < 0 then 1 else Nat.pow 2 exponent.natAbs
    scale := if exponent < 0 then Nat.pow 2 exponent.natAbs else 1 }

namespace Interval

/-- Whether `count * 10 ^ exponent` lies in the interval. -/
def holds (interval : Interval) (count : Nat) (exponent : Int) : Bool :=
  let tens := Nat.pow 10 exponent.natAbs
  let (count, factor) :=
    if exponent < 0 then (count * interval.scale, interval.unit * tens)
    else (count * tens * interval.scale, interval.unit)
  if interval.closed then interval.low * factor ≤ count && count ≤ interval.high * factor
  else interval.low * factor < count && count < interval.high * factor

/-- The value in units of `10 ^ exponent`, as a quotient. -/
def quotient (interval : Interval) (exponent : Int) : Nat × Nat :=
  let tens := Nat.pow 10 exponent.natAbs
  if exponent < 0 then (interval.value * interval.unit * tens, interval.scale)
  else (interval.value * interval.unit, interval.scale * tens)

/-- The multiple of `10 ^ exponent` in the interval that is nearest to the value, an even one from
halfway. -/
def nearest? (interval : Interval) (exponent : Int) : Option Nat :=
  let (numerator, denominator) := interval.quotient exponent
  let below := numerator / denominator
  let double := 2 * (numerator % denominator)
  match interval.holds below exponent, interval.holds (below + 1) exponent with
  | true, true =>
      if double < denominator ∨ (double = denominator ∧ below % 2 = 0) then some below
      else some (below + 1)
  | true, false => some below
  | false, true => some (below + 1)
  | false, false => none

/-- The first multiple in the interval, from the coarsest of `fuel` decimal grids on. -/
def coarsest (interval : Interval) : Nat → Int → Decimal
  | 0, exponent => ⟨digitsIn 10 ((interval.nearest? exponent).getD 0), exponent⟩
  | fuel + 1, exponent =>
      match interval.nearest? exponent with
      | some count => Decimal.normalize ⟨digitsIn 10 count, exponent⟩
      | none => interval.coarsest fuel (exponent - 1)

/-- The power of ten of the first digit of the value. -/
def magnitude (interval : Interval) : Int :=
  let (numerator, denominator) := interval.quotient 0
  if denominator ≤ numerator then ((digitsIn 10 (numerator / denominator)).length : Int) - 1
  else
    let lead := (digitsIn 10 (denominator / numerator)).length
    if numerator * Nat.pow 10 (lead - 1) < denominator then -(lead : Int) else -(lead - 1 : Int)

end Interval

/-- The shortest decimal that reads back as a positive number. -/
def shortest (number : Binary64) : Decimal :=
  let interval := number.interval
  interval.coarsest 17 interval.magnitude

/-- A decimal with a point: positional from `0.00001` up to below `10 ^ 16`, and otherwise with one
digit before the point and a signed exponent. -/
def layout (number : Decimal) : List Char :=
  let count : Int := number.digits.length
  let point : Int := count + number.exponent
  if 0 ≤ number.exponent ∧ point ≤ 16 then
    number.digits ++ List.replicate number.exponent.natAbs '0' ++ ['.', '0']
  else if 0 < point ∧ point ≤ 16 then
    number.digits.take point.natAbs ++ '.' :: number.digits.drop point.natAbs
  else if -5 < point ∧ point ≤ 0 then
    '0' :: '.' :: (List.replicate point.natAbs '0' ++ number.digits)
  else
    let fraction := number.digits.drop 1
    number.digits.take 1 ++ (if fraction.isEmpty then [] else '.' :: fraction) ++
      'e' :: (if point - 1 < 0 then '-' else '+') :: digitsIn 10 (point - 1).natAbs

def text (number : Binary64) : String :=
  let digits := if number.mantissa = 0 then ['0', '.', '0'] else layout number.shortest
  String.ofList (if number.negative then '-' :: digits else digits)

end Binary64

end RowGrammar

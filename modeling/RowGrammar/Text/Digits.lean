/-!
# Digits

Writing and reading natural numbers in bases up to sixteen.
-/

namespace RowGrammar.Text

/-- The lower case digit for a value below sixteen. -/
def hexDigit (value : Nat) : Char :=
  if value < 10 then Char.ofNat (48 + value) else Char.ofNat (87 + value)

/-- The digits of a number in a base, most significant first, at least one. -/
def digitsIn (base : Nat) (value : Nat) : List Char :=
  go value value []
where
  /-- Puts the digits of `value` in front of `digits`; `fuel` bounds their number. -/
  go : Nat → Nat → List Char → List Char
    | 0, value, digits => hexDigit (value % base) :: digits
    | fuel + 1, value, digits =>
        if value < base then hexDigit value :: digits
        else go fuel (value / base) (hexDigit (value % base) :: digits)

def decimal (value : Nat) : String :=
  String.ofList (digitsIn 10 value)

/-- The value of a hexadecimal digit of either case. -/
def hexValue? (c : Char) : Option Nat :=
  if '0' ≤ c ∧ c ≤ '9' then some (c.toNat - 48)
  else if 'a' ≤ c ∧ c ≤ 'f' then some (c.toNat - 87)
  else if 'A' ≤ c ∧ c ≤ 'F' then some (c.toNat - 55)
  else none

/-- The number that decimal digits denote; other characters count as their distance from `0`. -/
def decimalValue (digits : List Char) : Nat :=
  digits.foldl (fun value digit => value * 10 + (digit.toNat - 48)) 0

/-- The number that hexadecimal digits denote, none if another character is among them. -/
def hexadecimalValue? (digits : List Char) : Option Nat :=
  digits.foldlM (fun value digit => (hexValue? digit).map (value * 16 + ·)) 0

/-- The character with a code point, unless the number is none or a surrogate. -/
def charOf? (code : Nat) : Option Char :=
  if code.isValidChar then some (Char.ofNat code) else none

end RowGrammar.Text

import RowGrammar.Number.Binary64
import RowGrammar.Yaml.Scalar

/-!
# Writing YAML scalars

A scalar is written plainly where that is possible.  Texts that read as something else than a text
are put in single quotes, texts of several lines are written as literal blocks, and texts with
characters that cannot be printed are put in double quotes.
-/

namespace RowGrammar.Yaml

open RowGrammar.Text

/-- How a scalar is written. -/
inductive ScalarStyle where
  | plain
  | singleQuoted
  | doubleQuoted
  | literal
  deriving DecidableEq, Repr

/-! ## Texts that read as something else -/

/-- The words for truth values and for nothing, those of older versions included. -/
def reservedWords : List String := [
  "y", "Y", "yes", "Yes", "YES", "n", "N", "no", "No", "NO", "true", "True", "TRUE", "false",
  "False", "FALSE", "on", "On", "ON", "off", "Off", "OFF", "null", "Null", "NULL", "~",
  ".inf", ".Inf", ".INF", "+.inf", "+.Inf", "+.INF", "-.inf", "-.Inf", "-.INF", ".nan", ".NaN",
  ".NAN"]

/-- A text without one sign at its start. -/
def withoutSign : List Char → List Char
  | '-' :: chars | '+' :: chars => chars
  | chars => chars

/-- Whether a text consists of digits in a base and denotes a number of at most 128 bits, or 127
bits if it is negative. -/
def isBased (base : Nat) (negative : Bool) (digits : List Char) : Bool :=
  !digits.isEmpty && digits.all (fun c => (hexValue? c).any (· < base)) &&
    (let value := digits.foldl (fun value c => value * base + (hexValue? c).getD 0) 0
     if negative then value ≤ Nat.pow 2 127 else value < Nat.pow 2 128)

/-- Whether a text is a number in base 2, 8 or 16. -/
def isBasedNumber (chars : List Char) : Bool :=
  match withoutSign chars with
  | '0' :: 'x' :: digits => isBased 16 (chars.head? == some '-') digits
  | '0' :: 'o' :: digits => isBased 8 (chars.head? == some '-') digits
  | '0' :: 'b' :: digits => isBased 2 (chars.head? == some '-') digits
  | _ => false

/-- Whether a text is a finite decimal number. -/
def isDecimalNumber (chars : List Char) : Bool :=
  (readBinary64? chars).isSome

/-- Whether a text would read as something else than a text. -/
def readsOtherwise (text : String) : Bool :=
  text.isEmpty || reservedWords.contains text || isBasedNumber text.toList ||
    isDecimalNumber text.toList ||
    (let digits := withoutSign text.toList
     digits.head? == some '0' && digits.all isAsciiDigit)

/-! ## Which styles are possible -/

/-- Whether a character can be written as it is. -/
def isPrintable (c : Char) : Bool :=
  let code := c.toNat
  c == '\n' || (0x20 ≤ code && code ≤ 0x7E) ||
    (0xA0 ≤ code && !(code == 0x2028 || code == 0x2029 || code == 0xFEFF || code == 0xFFFE ||
      code == 0xFFFF))

/-- Whether two neighbouring characters have these properties. -/
def hasPair (first second : Char → Bool) : List Char → Bool
  | [] | [_] => false
  | c :: d :: chars => (first c && second d) || hasPair first second (d :: chars)

/-- Whether a text needs quotes, even though it is on one line and can be printed. -/
def needsQuotes (chars : List Char) : Bool :=
  let isSpace := fun c => c == ' '
  let isColon := fun c => c == ':'
  !startsPlain false chars || chars.take 3 == ['-', '-', '-'] ||
    chars.take 3 == ['.', '.', '.'] || chars.head? == some ' ' || chars.getLast? == some ' ' ||
    chars.getLast? == some ':' || hasPair isColon isSpace chars ||
    hasPair isSpace (· == '#') chars

/-- Whether a text of several lines can be written as a literal block. -/
def fitsBlock (chars : List Char) : Bool :=
  chars.getLast? != some ' ' && !hasPair (· == ' ') (· == '\n') chars

def styleOf (text : String) : ScalarStyle :=
  let chars := text.toList
  if !chars.all isPrintable then .doubleQuoted
  else if chars.contains '\n' then if fitsBlock chars then .literal else .doubleQuoted
  else if readsOtherwise text || needsQuotes chars then .singleQuoted
  else .plain

/-! ## Texts of scalars -/

/-- The letter that stands for a character after a backslash. -/
def escapeLetter? (c : Char) : Option Char :=
  match c with
  | '\x00' => some '0'
  | '\x07' => some 'a'
  | '\x08' => some 'b'
  | '\t' => some 't'
  | '\n' => some 'n'
  | '\x0B' => some 'v'
  | '\x0C' => some 'f'
  | '\r' => some 'r'
  | '\x1B' => some 'e'
  | '"' => some '"'
  | '\\' => some '\\'
  | '\x85' => some 'N'
  | '\u2028' => some 'L'
  | '\u2029' => some 'P'
  | _ => none

/-- The code of a character with so many hexadecimal digits. -/
def hexCode (width : Nat) (c : Char) : List Char :=
  let digits := (digitsIn 16 c.toNat).map Char.toUpper
  List.replicate (width - digits.length) '0' ++ digits

/-- A character between double quotes. -/
def doubleQuotedChar (c : Char) : List Char :=
  match escapeLetter? c with
  | some letter => ['\\', letter]
  | none =>
      if isPrintable c then [c]
      else if c.toNat ≤ 0xFF then '\\' :: 'x' :: hexCode 2 c
      else '\\' :: 'u' :: hexCode 4 c

/-- The sign for the line breaks at the end of a literal block. -/
def chompingSign (chars : List Char) : List Char :=
  match chars.reverse with
  | '\n' :: '\n' :: _ | ['\n'] => ['+']
  | '\n' :: _ => []
  | _ => ['-']

/-- The lines of a literal block, indented unless they are empty. -/
def literalLines (indent : Nat) (chars : List Char) : List Char :=
  (linesOf chars).flatMap fun line =>
    '\n' :: (if line.isEmpty then [] else List.replicate indent ' ' ++ line)

/-- A literal block.  The line break that ends its last line is left to what follows. -/
def literalText (indent : Nat) (chars : List Char) : List Char :=
  let startsBlank := chars.head? == some ' ' || chars.head? == some '\n'
  '|' :: ((if startsBlank then ['2'] else []) ++ chompingSign chars ++ literalLines indent chars)

/-- A scalar whose further lines are indented by so many spaces. -/
def scalarText (indent : Nat) (text : String) : String :=
  match styleOf text with
  | .plain => text
  | .singleQuoted =>
      let inner := text.toList.flatMap fun c => if c = '\'' then ['\'', '\''] else [c]
      String.ofList ('\'' :: (inner ++ ['\'']))
  | .doubleQuoted => String.ofList ('"' :: (text.toList.flatMap doubleQuotedChar ++ ['"']))
  | .literal => String.ofList (literalText indent text.toList)

end RowGrammar.Yaml

import RowGrammar.Number.Binary64

/-!
# TOML values

Values, and how scalars are written: strings in their four notations, and the words for numbers,
truth values, dates and times.
-/

namespace RowGrammar

/-- A TOML value; dates and times count as texts. -/
inductive Toml where
  | bool (value : Bool)
  | integer (value : Int)
  | real (value : Binary64)
  | infinity (negative : Bool)
  | notANumber
  | string (text : String)
  | array (items : List Toml)
  | table (entries : List (String × Toml))
  deriving Repr

namespace Toml

/-- The entries of a table; other values have none. -/
def entries : Toml → List (String × Toml)
  | .table entries => entries
  | _ => []

/-- The items of an array; other values have none. -/
def items : Toml → List Toml
  | .array items => items
  | _ => []

end Toml

end RowGrammar

/-! ## Scalars -/

namespace RowGrammar.Toml

open RowGrammar.Text

def isSpace (c : Char) : Bool :=
  c == ' ' || c == '\t'

/-- Whether a character may stand in a string or a comment as it is. -/
def isText (c : Char) : Bool :=
  c == '\t' || (32 ≤ c.toNat && c.toNat != 127)

/-- The character that so many hexadecimal digits denote. -/
def codePoint? (count : Nat) (chars : List Char) : Option (Char × List Char) := do
  guard ((chars.take count).length = count)
  let code ← hexadecimalValue? (chars.take count)
  let c ← charOf? code
  return (c, chars.drop count)

/-- The character of an escape after its backslash. -/
def escape? : List Char → Option (Char × List Char)
  | 'b' :: rest => some ('\x08', rest)
  | 't' :: rest => some ('\t', rest)
  | 'n' :: rest => some ('\n', rest)
  | 'f' :: rest => some ('\x0C', rest)
  | 'r' :: rest => some ('\r', rest)
  | '"' :: rest => some ('"', rest)
  | '\\' :: rest => some ('\\', rest)
  | 'u' :: rest => codePoint? 4 rest
  | 'U' :: rest => codePoint? 8 rest
  | _ => none

def lineBreak? : List Char → Option (List Char)
  | '\n' :: rest => some rest
  | '\r' :: '\n' :: rest => some rest
  | _ => none

/-- How a string is delimited. -/
structure StringStyle where
  quote : Char
  /-- Whether three quotes stand on either side, with line breaks between them. -/
  multiline : Bool
  deriving DecidableEq, Repr

namespace StringStyle

def escapes (style : StringStyle) : Bool :=
  style.quote == '"'

/-- The rest after the closing quotes at the start, and quotes that still belong to the string. -/
def closing? (style : StringStyle) (chars : List Char) : Option (List Char × List Char) :=
  if style.multiline then
    let quotes := chars.takeWhile (· == style.quote)
    if 3 ≤ quotes.length ∧ quotes.length ≤ 5 then
      some (quotes.drop 3, chars.drop quotes.length)
    else none
  else
    match chars with
    | c :: rest => if c = style.quote then some ([], rest) else none
    | [] => none

/-- The rest after a backslash that ends a line and the blanks after it. -/
def continued? (style : StringStyle) (chars : List Char) : Option (List Char) :=
  if style.multiline && style.escapes then
    (lineBreak? (chars.dropWhile isSpace)).map fun rest =>
      rest.dropWhile fun c => isSpace c || c == '\n' || c == '\r'
  else none

/-- The characters of a string and what follows it; `fuel` bounds the number of steps. -/
def body? (style : StringStyle) : Nat → List Char → Option (List Char × List Char)
  | 0, _ => none
  | fuel + 1, chars =>
      match style.closing? chars with
      | some closed => some closed
      | none =>
          match chars with
          | [] => none
          | c :: rest =>
              if c = '\\' ∧ style.escapes then
                match style.continued? rest with
                | some rest => style.body? fuel rest
                | none => do
                    let (c, rest) ← escape? rest
                    let (text, rest) ← style.body? fuel rest
                    return (c :: text, rest)
              else if isText c then do
                let (text, rest) ← style.body? fuel rest
                return (c :: text, rest)
              else if style.multiline then do
                let rest ← lineBreak? chars
                let (text, rest) ← style.body? fuel rest
                return ('\n' :: text, rest)
              else none

end StringStyle

/-- The style of the string at the start, and what follows its opening quotes. -/
def opening? : List Char → Option (StringStyle × List Char)
  | '"' :: '"' :: '"' :: rest => some (⟨'"', true⟩, rest)
  | '"' :: rest => some (⟨'"', false⟩, rest)
  | '\'' :: '\'' :: '\'' :: rest => some (⟨'\'', true⟩, rest)
  | '\'' :: rest => some (⟨'\'', false⟩, rest)
  | _ => none

/-- The string at the start.  A line break right after three opening quotes is dropped. -/
def string? (chars : List Char) : Option (String × List Char) := do
  let (style, rest) ← opening? chars
  let rest := if style.multiline then (lineBreak? rest).getD rest else rest
  let (text, rest) ← style.body? (rest.length + 1) rest
  return (String.ofList text, rest)

/-- Digits that may have single underscores between them, without the underscores. -/
def digitRun? (isDigit : Char → Bool) : List Char → Option (List Char)
  | [] => none
  | [c] => if isDigit c then some [c] else none
  | c :: '_' :: rest =>
      if isDigit c then (digitRun? isDigit rest).map (c :: ·) else none
  | c :: rest => if isDigit c then (digitRun? isDigit rest).map (c :: ·) else none

/-- Decimal digits without needless zeros in front. -/
def wholePart? (chars : List Char) : Option (List Char) := do
  let digits ← digitRun? isAsciiDigit chars
  guard (digits.head? ≠ some '0' ∨ digits.length = 1)
  return digits

/-- A whole number that has 64 bits. -/
def bounded? (value : Int) : Option Toml :=
  if -(Nat.pow 2 63) ≤ value ∧ value < Nat.pow 2 63 then some (.integer value) else none

/-- A whole number in another base. -/
def based? (base : Nat) (isDigit : Char → Bool) (chars : List Char) : Option Toml := do
  let digits ← digitRun? isDigit chars
  let values := digits.map fun c => (hexValue? c).getD 0
  bounded? (values.foldl (fun value d => value * base + d) 0 : Nat)

/-- The whole number that a word denotes. -/
def integer? : List Char → Option Toml
  | '0' :: 'x' :: chars => based? 16 (fun c => (hexValue? c).isSome) chars
  | '0' :: 'o' :: chars => based? 8 (fun c => '0' ≤ c && c ≤ '7') chars
  | '0' :: 'b' :: chars => based? 2 (fun c => c == '0' || c == '1') chars
  | chars => do
      let (negative, chars) := splitSign chars
      let value : Int := decimalValue (← wholePart? chars)
      bounded? (if negative then -value else value)

/-- The exponent at the start of what follows a number's digits, as decimal text. -/
def exponent? : List Char → Option (List Char)
  | [] => some []
  | c :: chars => do
      guard (c = 'e' ∨ c = 'E')
      let (negative, chars) := splitSign chars
      let digits ← digitRun? isAsciiDigit chars
      return 'e' :: (if negative then '-' :: digits else digits)

/-- The number with a fraction or an exponent that a word denotes. -/
def real? (word : List Char) : Option Toml := do
  let (negative, chars) := splitSign word
  let isDigitOrGap := fun c => isAsciiDigit c || c == '_'
  let whole ← wholePart? (chars.takeWhile isDigitOrGap)
  let rest := chars.dropWhile isDigitOrGap
  let (fraction, rest) ←
    match rest with
    | '.' :: rest => do
        let fraction ← digitRun? isAsciiDigit (rest.takeWhile isDigitOrGap)
        some ('.' :: fraction, rest.dropWhile isDigitOrGap)
    | rest => some ([], rest)
  guard (!(fraction.isEmpty && rest.isEmpty))
  let exponent ← exponent? rest
  let value ← readBinary64? ((if negative then ['-'] else []) ++ whole ++ fraction ++ exponent)
  return .real value

/-- The infinity, or the number that is none, that a word denotes. -/
def special? (word : List Char) : Option Toml :=
  let (negative, chars) := splitSign word
  if chars = ['i', 'n', 'f'] then some (.infinity negative)
  else if chars = ['n', 'a', 'n'] then some .notANumber
  else none

/-- Whether a text has a shape, in which `0` stands for any digit and anything else for itself. -/
def hasShape : List Char → List Char → Bool
  | [], [] => true
  | '0' :: shape, c :: chars => isAsciiDigit c && hasShape shape chars
  | s :: shape, c :: chars => s == c && hasShape shape chars
  | _, _ => false

/-- The number that digits of a date or time denote. -/
def part (chars : List Char) (start count : Nat) : Nat :=
  decimalValue ((chars.drop start).take count)

def daysOf (year month : Nat) : Nat :=
  if month = 2 then
    if year % 4 = 0 ∧ (year % 100 ≠ 0 ∨ year % 400 = 0) then 29 else 28
  else if month = 4 ∨ month = 6 ∨ month = 9 ∨ month = 11 then 30
  else 31

def isDate (chars : List Char) : Bool :=
  hasShape "0000-00-00".toList chars &&
    (1 ≤ part chars 5 2 && part chars 5 2 ≤ 12 && 1 ≤ part chars 8 2 &&
      part chars 8 2 ≤ daysOf (part chars 0 4) (part chars 5 2))

/-- Whether a text is a time of day, with an optional fraction of a second. -/
def isTime (chars : List Char) : Bool :=
  hasShape "00:00:00".toList (chars.take 8) &&
    (part chars 0 2 ≤ 23 && part chars 3 2 ≤ 59 && part chars 6 2 ≤ 60) &&
    match chars.drop 8 with
    | [] => true
    | '.' :: fraction => !fraction.isEmpty && fraction.all isAsciiDigit
    | _ => false

/-- Whether a text is nothing or an offset from universal time. -/
def isOffset : List Char → Bool
  | [] | ['Z'] | ['z'] => true
  | c :: chars =>
      (c == '+' || c == '-') && hasShape "00:00".toList chars &&
        (part chars 0 2 ≤ 23 && part chars 3 2 ≤ 59)

/-- The date, the time or both that a word denotes. -/
def dateTime? (word : List Char) : Option Toml :=
  if isDate word || isTime word then some (.string (String.ofList word))
  else
    let isTimeChar := fun c => isAsciiDigit c || c == ':' || c == '.'
    match word.drop 10 with
    | c :: rest =>
        if isDate (word.take 10) && (c == 'T' || c == 't' || c == ' ') &&
            isTime (rest.takeWhile isTimeChar) && isOffset (rest.dropWhile isTimeChar) then
          some (.string (String.ofList (word.take 10 ++ 'T' :: rest)))
        else none
    | [] => none

def isWordChar (c : Char) : Bool :=
  isAsciiLetter c || isAsciiDigit c || c == '+' || c == '-' || c == '_' || c == '.' || c == ':'

/-- The word at the start; a date takes the time after a space along. -/
def splitWord (chars : List Char) : List Char × List Char :=
  let word := chars.takeWhile isWordChar
  let rest := chars.dropWhile isWordChar
  match rest with
  | ' ' :: a :: b :: ':' :: _ =>
      if isDate word && isAsciiDigit a && isAsciiDigit b then
        (word ++ ' ' :: (rest.drop 1).takeWhile isWordChar, (rest.drop 1).dropWhile isWordChar)
      else (word, rest)
  | _ => (word, rest)

def ofWord? (word : List Char) : Option Toml :=
  if word = "true".toList then some (.bool true)
  else if word = "false".toList then some (.bool false)
  else integer? word <|> real? word <|> special? word <|> dateTime? word

end RowGrammar.Toml

import RowGrammar.Json.Basic

/-!
# Reading JSON

A text is a JSON document when it holds one value with nothing but blanks around it.  Arrays and
objects may be nested up to a limit.
-/

namespace RowGrammar.Json

open RowGrammar.Text

/-- How many arrays and objects may be open at a time. -/
def maxDepth : Nat := 127

def isSpace (c : Char) : Bool :=
  c == ' ' || c == '\n' || c == '\t' || c == '\r'

/-- The code unit that four hexadecimal digits denote. -/
def codeUnit? (chars : List Char) : Option (Nat × List Char) := do
  guard ((chars.take 4).length = 4)
  let unit ← hexadecimalValue? (chars.take 4)
  return (unit, chars.drop 4)

/-- The character of a `\u` escape after its letter; two escapes may form a surrogate pair. -/
def unicodeEscape? (chars : List Char) : Option (Char × List Char) := do
  let (unit, rest) ← codeUnit? chars
  if 0xD800 ≤ unit ∧ unit < 0xDC00 then
    let '\\' :: 'u' :: rest := rest | none
    let (low, rest) ← codeUnit? rest
    guard (0xDC00 ≤ low ∧ low < 0xE000)
    let c ← charOf? (0x10000 + (unit - 0xD800) * 0x400 + (low - 0xDC00))
    return (c, rest)
  else
    let c ← charOf? unit
    return (c, rest)

/-- The character of an escape after its backslash. -/
def escape? : List Char → Option (Char × List Char)
  | '"' :: rest => some ('"', rest)
  | '\\' :: rest => some ('\\', rest)
  | '/' :: rest => some ('/', rest)
  | 'b' :: rest => some ('\x08', rest)
  | 'f' :: rest => some ('\x0C', rest)
  | 'n' :: rest => some ('\n', rest)
  | 'r' :: rest => some ('\r', rest)
  | 't' :: rest => some ('\t', rest)
  | 'u' :: rest => unicodeEscape? rest
  | _ => none

/-- The characters of a string up to its closing quote; `fuel` bounds their number. -/
def stringRest? : Nat → List Char → Option (List Char × List Char)
  | 0, _ => none
  | _, [] => none
  | fuel + 1, c :: chars =>
      if c = '"' then some ([], chars)
      else if c = '\\' then do
        let (c, rest) ← escape? chars
        let (text, rest) ← stringRest? fuel rest
        return (c :: text, rest)
      else if c.toNat < 32 then none
      else do
        let (text, rest) ← stringRest? fuel chars
        return (c :: text, rest)

/-- The characters of a string after its opening quote. -/
def string? (chars : List Char) : Option (String × List Char) :=
  (stringRest? (chars.length + 1) chars).map fun (text, rest) => (String.ofList text, rest)

/-- One digit or more at the start. -/
def digits? (chars : List Char) : Option (List Char × List Char) :=
  let digits := chars.takeWhile isAsciiDigit
  if digits.isEmpty then none else some (digits, chars.dropWhile isAsciiDigit)

/-- The fraction at the start, which may be absent. -/
def fraction? : List Char → Option (List Char × List Char)
  | '.' :: chars => (digits? chars).map fun (digits, rest) => ('.' :: digits, rest)
  | chars => some ([], chars)

/-- The exponent at the start, which may be absent. -/
def exponent? : List Char → Option (List Char × List Char)
  | 'e' :: chars | 'E' :: chars =>
      let (negative, chars) := splitSign chars
      (digits? chars).map fun (digits, rest) =>
        ('e' :: (if negative then '-' :: digits else digits), rest)
  | chars => some ([], chars)

/-- A number; whole numbers keep their exact value up to 64 bits. -/
def number? (chars : List Char) : Option (Json × List Char) := do
  let (negative, chars) :=
    match chars with
    | '-' :: chars => (true, chars)
    | chars => (false, chars)
  let (whole, rest) ← digits? chars
  guard (whole.head? ≠ some '0' ∨ whole.length = 1)
  let (fraction, rest) ← fraction? rest
  let (exponent, rest) ← exponent? rest
  let sign := if negative then ['-'] else []
  let value := decimalValue whole
  let bound := if negative then Nat.pow 2 63 + 1 else Nat.pow 2 64
  if fraction.isEmpty && exponent.isEmpty && value < bound then
    return (.integer (if negative then -value else value), rest)
  else
    let value ← readBinary64? (sign ++ whole ++ fraction ++ exponent)
    return (.real value, rest)

mutual

/-- Reads a value at most `depth` levels deep; `fuel` bounds the characters read. -/
def value? : Nat → Nat → List Char → Option (Json × List Char)
  | 0, _, _ => none
  | fuel + 1, depth, chars =>
      match chars.dropWhile isSpace with
      | 'n' :: 'u' :: 'l' :: 'l' :: rest => some (.null, rest)
      | 't' :: 'r' :: 'u' :: 'e' :: rest => some (.bool true, rest)
      | 'f' :: 'a' :: 'l' :: 's' :: 'e' :: rest => some (.bool false, rest)
      | '"' :: rest => (string? rest).map fun (text, rest) => (.string text, rest)
      | '[' :: rest =>
          match depth, rest.dropWhile isSpace with
          | 0, _ => none
          | _, ']' :: rest => some (.array [], rest)
          | depth + 1, rest =>
              (items? fuel depth rest).map fun (items, rest) => (.array items, rest)
      | '{' :: rest =>
          match depth, rest.dropWhile isSpace with
          | 0, _ => none
          | _, '}' :: rest => some (.object [], rest)
          | depth + 1, rest =>
              (members? fuel depth rest).map fun (members, rest) => (.object members, rest)
      | rest => number? rest

/-- Reads the items of an array and its closing bracket. -/
def items? : Nat → Nat → List Char → Option (List Json × List Char)
  | 0, _, _ => none
  | fuel + 1, depth, chars => do
      let (item, rest) ← value? fuel depth chars
      match rest.dropWhile isSpace with
      | ',' :: rest => do
          let (items, rest) ← items? fuel depth rest
          return (item :: items, rest)
      | ']' :: rest => return ([item], rest)
      | _ => none

/-- Reads the members of an object and its closing brace. -/
def members? : Nat → Nat → List Char → Option (List (String × Json) × List Char)
  | 0, _, _ => none
  | fuel + 1, depth, chars => do
      let '"' :: rest := chars.dropWhile isSpace | none
      let (key, rest) ← string? rest
      let ':' :: rest := rest.dropWhile isSpace | none
      let (value, rest) ← value? fuel depth rest
      match rest.dropWhile isSpace with
      | ',' :: rest => do
          let (members, rest) ← members? fuel depth rest
          return ((key, value) :: members, rest)
      | '}' :: rest => return ([(key, value)], rest)
      | _ => none

end

def read? (text : String) : Option Json := do
  let chars := text.toList
  let (value, rest) ← value? (2 * chars.length + 2) maxDepth chars
  guard (rest.all isSpace)
  return value

end RowGrammar.Json

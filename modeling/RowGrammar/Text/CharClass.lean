import RowGrammar.Text.CodeRanges

/-!
# Character classes

The classes of characters that patterns and literals are judged by.  Blank characters have the
property White_Space.  Alphanumeric characters are letters and numbers of every kind, whereas word
characters are letters, marks, decimal digits, connecting punctuation and the two joiners, so
neither of these two classes contains the other.
-/

namespace RowGrammar.Text

/-- Code points with the property White_Space. -/
def blankRanges : CodeRanges := [
  (0x09, 0x0D), (0x20, 0x20), (0x85, 0x85), (0xA0, 0xA0), (0x1680, 0x1680), (0x2000, 0x200A),
  (0x2028, 0x2029), (0x202F, 0x202F), (0x205F, 0x205F), (0x3000, 0x3000)]

/-- Connecting punctuation such as the underscore. -/
def connectorRanges : CodeRanges := [
  (0x5F, 0x5F), (0x203F, 0x2040), (0x2054, 0x2054), (0xFE33, 0xFE34), (0xFE4D, 0xFE4F),
  (0xFF3F, 0xFF3F)]

/-- The zero width joiner and non-joiner. -/
def joinerRanges : CodeRanges := [(0x200C, 0x200D)]

def isBlank (c : Char) : Bool :=
  blankRanges.contains c.toNat

def isAlphabetic (c : Char) : Bool :=
  alphabeticRanges.contains c.toNat

def isDecimalDigit (c : Char) : Bool :=
  decimalDigitRanges.contains c.toNat

/-- Letters and numbers of every kind. -/
def isAlphanumeric (c : Char) : Bool :=
  isAlphabetic c || isDecimalDigit c || otherNumberRanges.contains c.toNat

/-- The characters that a word boundary separates from all others. -/
def isWord (c : Char) : Bool :=
  isAlphabetic c || isDecimalDigit c || connectorRanges.contains c.toNat ||
    markRanges.contains c.toNat || joinerRanges.contains c.toNat

/-- The letters that names of node types, groups and flags are made of. -/
def isAsciiLetter (c : Char) : Bool :=
  ('a' ≤ c && c ≤ 'z') || ('A' ≤ c && c ≤ 'Z')

def isAsciiDigit (c : Char) : Bool :=
  '0' ≤ c && c ≤ '9'

/-- The characters of node type and group names. -/
def isNameLetter (c : Char) : Bool :=
  isAsciiLetter c || c == '_'

/-- The characters without the blank ones at either end. -/
def trimChars (chars : List Char) : List Char :=
  ((chars.dropWhile isBlank).reverse.dropWhile isBlank).reverse

/-- A text without the blank characters at either end. -/
def trim (text : String) : String :=
  String.ofList (trimChars text.toList)

def isBlankText (text : String) : Bool :=
  text.toList.all isBlank

/-- The length in bytes of the UTF-8 form. -/
def utf8Length (chars : List Char) : Nat :=
  chars.foldr (fun c length => c.utf8Size + length) 0

end RowGrammar.Text

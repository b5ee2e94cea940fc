import RowGrammar.Text.Digits
import RowGrammar.TokenPattern.Words

/-!
# Escaping literals

A literal of the source as a token pattern that matches just this literal.  Blank characters are
written as escapes, since layout is dropped from token patterns, and words that would be taken for
references are written letter by letter.
-/

namespace RowGrammar.Derivation

open RowGrammar.Text RowGrammar.TokenPattern

/-- The characters that mean something else in a character pattern unless escaped. -/
def isSpecial (c : Char) : Bool :=
  c == '\\' || c == '.' || c == '+' || c == '*' || c == '?' || c == '(' || c == ')' || c == '|' ||
    c == '[' || c == ']' || c == '{' || c == '}' || c == '^' || c == '$' || c == '#' || c == '&' ||
    c == '-' || c == '~'

/-- One character of a literal as a pattern. -/
def escapeChar (c : Char) : List Char :=
  if c = '\n' then ['\\', 'n']
  else if c = '\t' then ['\\', 't']
  else if c = '\r' then ['\\', 'r']
  else if isBlank c then
    ['\\', 'x', '{'] ++ (digitsIn 16 c.toNat).map Char.toUpper ++ ['}']
  else if isSpecial c then ['\\', c]
  else [c]

/-- A segment of an escaped literal with the letters of a reserved word as classes. -/
def guardSegment (reserved : List String) : Segment → List Char
  | .word chars =>
      if reserved.contains (String.ofList chars) then chars.flatMap fun c => ['[', c, ']']
      else chars
  | .verbatim chars => chars

/-- A pattern for exactly the literal in which no word is one of the reserved names. -/
def escapeLiteral (literal : String) (reserved : List String) : String :=
  let escaped := literal.toList.flatMap escapeChar
  String.ofList ((segments escaped).flatMap (guardSegment reserved))

/-- The characters that literals of words end in. -/
def endsWord (c : Char) : Bool :=
  isAlphanumeric c || c == '_'

/-- The pattern of a literal, with a word boundary after it if the literal ends like a word and
none of the characters that follow it in the source goes on with the word. -/
def withBoundary (pattern literal : String) (followers : List (Option Char)) : String :=
  if literal.toList.getLast?.any endsWord && !followers.any (·.any endsWord) then pattern ++ "\\b"
  else pattern

end RowGrammar.Derivation

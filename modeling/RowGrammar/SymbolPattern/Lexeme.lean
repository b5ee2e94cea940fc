import RowGrammar.Text.CharClass

/-!
# Lexemes of a parse pattern

A parse pattern consists of names, numbers and single signs, with ASCII blanks between them.  Each
lexeme keeps the offset it starts at, which tells whether it directly follows the one before.
-/

namespace RowGrammar.SymbolPattern

open RowGrammar.Text

/-- The characters that separate lexemes. -/
def isSeparator (c : Char) : Bool :=
  c == ' ' || c == '\t' || c == '\n' || c == '\x0C' || c == '\r'

inductive Lexeme where
  | name (letters : List Char)
  | number (digits : List Char)
  | sign (c : Char)
  deriving DecidableEq, Repr

/-- A lexeme and the offset it starts at. -/
structure Placed where
  offset : Nat
  lexeme : Lexeme
  deriving DecidableEq, Repr

/-- Puts a character in front of lexemes, as a part of the first one if it belongs to it. -/
def extend (offset : Nat) (c : Char) (lexemes : List Placed) : List Placed :=
  if isSeparator c then lexemes
  else if isNameLetter c then
    match lexemes with
    | ⟨next, .name letters⟩ :: rest =>
        if next = offset + 1 then ⟨offset, .name (c :: letters)⟩ :: rest
        else ⟨offset, .name [c]⟩ :: lexemes
    | _ => ⟨offset, .name [c]⟩ :: lexemes
  else if isAsciiDigit c then
    match lexemes with
    | ⟨next, .number digits⟩ :: rest =>
        if next = offset + 1 then ⟨offset, .number (c :: digits)⟩ :: rest
        else ⟨offset, .number [c]⟩ :: lexemes
    | _ => ⟨offset, .number [c]⟩ :: lexemes
  else ⟨offset, .sign c⟩ :: lexemes

/-- The lexemes of characters of which the first has the given offset. -/
def lexemesFrom (offset : Nat) : List Char → List Placed
  | [] => []
  | c :: chars => extend offset c (lexemesFrom (offset + 1) chars)

/-- The names in a parse pattern that may refer to something: all of two letters or more. -/
def referencedNames (pattern : String) : List String :=
  (lexemesFrom 0 pattern.toList).filterMap fun placed =>
    match placed.lexeme with
    | .name letters => if 2 ≤ letters.length then some (String.ofList letters) else none
    | _ => none

end RowGrammar.SymbolPattern

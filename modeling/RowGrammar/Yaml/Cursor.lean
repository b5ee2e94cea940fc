import RowGrammar.Text.CharClass

/-!
# Places in a document

A place in a YAML document is the text from there on and the column, which tells how deep the place
is nested.
-/

namespace RowGrammar.Yaml

/-- The rest of a document and the column that it starts in. -/
structure Cursor where
  column : Nat
  rest : List Char
  deriving DecidableEq, Repr

def isBlank (c : Char) : Bool :=
  c == ' ' || c == '\t'

/-- Whether a text starts with a blank or a line break, or is at its end. -/
def startsBlank : List Char → Bool
  | [] => true
  | c :: _ => isBlank c || c == '\n'

/-- The characters that delimit flow sequences and mappings. -/
def isFlowSign (c : Char) : Bool :=
  c == ',' || c == '[' || c == ']' || c == '{' || c == '}'

namespace Cursor

/-- The place so many characters later on the same line. -/
def skip (cursor : Cursor) (count : Nat) : Cursor :=
  ⟨cursor.column + count, cursor.rest.drop count⟩

/-- The place after the characters at the start that have a property, all on the same line. -/
def skipWhile (cursor : Cursor) (property : Char → Bool) : Cursor :=
  cursor.skip (cursor.rest.takeWhile property).length

end Cursor

/-- What stands between two tokens. -/
inductive Gap where
  | none
  | blanks
  /-- At least one line break. -/
  | lines
  deriving DecidableEq, Repr

/-- Skips blanks, line breaks and comments; a comment follows a blank or starts a line. -/
def skipGapFrom (column : Nat) (comment : Bool) (gap : Gap) : List Char → Gap × Cursor
  | [] => (gap, ⟨column, []⟩)
  | c :: rest =>
      if c = '\n' then skipGapFrom 0 false .lines rest
      else if comment then skipGapFrom (column + 1) true gap rest
      else if isBlank c then
        skipGapFrom (column + 1) false (if gap = .none then .blanks else gap) rest
      else if c = '#' ∧ gap ≠ .none then skipGapFrom (column + 1) true gap rest
      else (gap, ⟨column, c :: rest⟩)

namespace Cursor

/-- The next token, and what stands before it. -/
def skipGap (cursor : Cursor) : Gap × Cursor :=
  skipGapFrom cursor.column false (if cursor.column = 0 then .blanks else .none) cursor.rest

/-- The next token on whatever line. -/
def next (cursor : Cursor) : Cursor :=
  cursor.skipGap.2

/-- Whether nothing but a comment is left of the line. -/
def endsLine (cursor : Cursor) : Bool :=
  cursor.column == 0 ||
    match cursor.skipGap with
    | (gap, ⟨_, rest⟩) => gap == .lines || rest.isEmpty

/-- Whether three signs that delimit documents start a line here. -/
def isMarker (cursor : Cursor) (sign : Char) : Bool :=
  cursor.column == 0 && cursor.rest.take 3 == [sign, sign, sign] &&
    startsBlank (cursor.rest.drop 3)

def isEnd (cursor : Cursor) : Bool :=
  cursor.rest.isEmpty || cursor.isMarker '-' || cursor.isMarker '.'

end Cursor

end RowGrammar.Yaml

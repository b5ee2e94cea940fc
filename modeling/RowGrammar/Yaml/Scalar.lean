import RowGrammar.Text.Digits
import RowGrammar.Yaml.Cursor

/-!
# YAML scalars

Plain and quoted scalars are folded: a line break within them is a space, and of several line
breaks one is dropped.  Block scalars are delimited by their indentation.
-/

namespace RowGrammar.Yaml

open RowGrammar.Text

/-! ## Folding -/

/-- The text that so many line breaks within a folded scalar stand for. -/
def folded (breaks : Nat) : List Char :=
  if breaks ≤ 1 then [' '] else List.replicate (breaks - 1) '\n'

/-- The line breaks at the start, with the blanks around them, and the place after them. -/
def countBreaksFrom (column breaks : Nat) : List Char → Nat × Cursor
  | [] => (breaks, ⟨column, []⟩)
  | c :: rest =>
      if c = '\n' then countBreaksFrom 0 (breaks + 1) rest
      else if isBlank c then countBreaksFrom (column + 1) breaks rest
      else (breaks, ⟨column, c :: rest⟩)

/-- The line breaks at a place and the place after them. -/
def countBreaks (cursor : Cursor) : Nat × Cursor :=
  countBreaksFrom cursor.column 0 cursor.rest

/-! ## Quoted scalars -/

/-- The character that so many hexadecimal digits denote. -/
def codePoint? (count : Nat) (cursor : Cursor) : Option (Char × Cursor) := do
  guard ((cursor.rest.take count).length = count)
  let code ← hexadecimalValue? (cursor.rest.take count)
  let c ← charOf? code
  return (c, cursor.skip count)

/-- The character that a letter after a backslash denotes. -/
def escapedChar? (letter : Char) : Option Char :=
  match letter with
  | '0' => some '\x00'
  | 'a' => some '\x07'
  | 'b' => some '\x08'
  | 't' | '\t' => some '\t'
  | 'n' => some '\n'
  | 'v' => some '\x0B'
  | 'f' => some '\x0C'
  | 'r' => some '\r'
  | 'e' => some '\x1B'
  | ' ' => some ' '
  | '"' => some '"'
  | '/' => some '/'
  | '\\' => some '\\'
  | 'N' => some '\x85'
  | '_' => some '\xA0'
  | 'L' => some '\u2028'
  | 'P' => some '\u2029'
  | _ => none

/-- The character of an escape after its backslash. -/
def escape? (cursor : Cursor) : Option (Char × Cursor) :=
  match cursor.rest with
  | 'x' :: _ => codePoint? 2 (cursor.skip 1)
  | 'u' :: _ => codePoint? 4 (cursor.skip 1)
  | 'U' :: _ => codePoint? 8 (cursor.skip 1)
  | letter :: _ => (escapedChar? letter).map fun c => (c, cursor.skip 1)
  | [] => none

/-- The characters of a scalar after its opening quote, and the place after the closing one;
`fuel` bounds the number of steps. -/
def quoted? (quote : Char) : Nat → Cursor → Option (List Char × Cursor)
  | 0, _ => none
  | fuel + 1, cursor =>
      match cursor.rest with
      | [] => none
      | c :: rest =>
          if c = quote then
            if quote = '\'' ∧ rest.head? = some quote then do
              let (text, after) ← quoted? quote fuel (cursor.skip 2)
              return (quote :: text, after)
            else some ([], cursor.skip 1)
          else if c = '\\' ∧ quote = '"' then
            if rest.head? = some '\n' then do
              let (breaks, next) := countBreaks (cursor.skip 1)
              let (text, after) ← quoted? quote fuel next
              return (List.replicate (breaks - 1) '\n' ++ text, after)
            else do
              let (c, next) ← escape? (cursor.skip 1)
              let (text, after) ← quoted? quote fuel next
              return (c :: text, after)
          else if isBlank c || c == '\n' then do
            let (breaks, next) := countBreaks cursor
            guard !(0 < breaks && next.isEnd)
            let (text, after) ← quoted? quote fuel next
            let gap :=
              if breaks = 0 then cursor.rest.take (cursor.rest.length - next.rest.length)
              else folded breaks
            return (gap ++ text, after)
          else do
            let (text, after) ← quoted? quote fuel (cursor.skip 1)
            return (c :: text, after)

/-! ## Plain scalars -/

/-- Whether a plain scalar can start here. -/
def startsPlain (flow : Bool) (chars : List Char) : Bool :=
  match chars with
  | [] => false
  | c :: rest =>
      if c == '-' then !startsBlank rest
      else if c == '?' || c == ':' then !flow && !startsBlank rest
      else
        !(isBlank c || c == '\n' || isFlowSign c || c == '#' || c == '&' || c == '*' || c == '!' ||
          c == '|' || c == '>' || c == '\'' || c == '"' || c == '%' || c == '@' || c == '\x60')

/-- The part of a plain scalar on one line, after a character that is a blank or not. -/
def plainLine (flow afterBlank : Bool) : List Char → List Char
  | [] => []
  | c :: rest =>
      if c = '\n' ∨ (c = '#' ∧ afterBlank) ∨ (c = ':' ∧ startsBlank rest) ∨
          (flow ∧ (isFlowSign c ∨ (c = ':' ∧ rest.head?.any isFlowSign))) then []
      else c :: plainLine flow (isBlank c) rest

/-- A line of a plain scalar without the blanks at its end, and the place after it. -/
def plainPart (flow : Bool) (cursor : Cursor) : List Char × Cursor :=
  let line := plainLine flow false cursor.rest
  let part := (line.reverse.dropWhile isBlank).reverse
  (part, cursor.skip part.length)

/-- A plain scalar, and the place after it.  It goes on in lines that start in the column `least`
or later; `fuel` bounds the number of lines. -/
def plain (flow : Bool) (least : Nat) : Nat → Cursor → List Char × Cursor
  | 0, cursor => ([], cursor)
  | fuel + 1, cursor =>
      let (part, after) := plainPart flow cursor
      let (breaks, next) := countBreaks after
      let goesOn := 0 < breaks && least ≤ next.column && !next.isEnd &&
        next.rest.head?.all (· != '#') && !(plainPart flow next).1.isEmpty
      if goesOn then
        let (text, after) := plain flow least fuel next
        (part ++ folded breaks ++ text, after)
      else (part, after)

/-! ## Block scalars -/

/-- What becomes of the line breaks at the end of a block scalar. -/
inductive Chomping where
  | strip
  | clip
  | keep
  deriving DecidableEq, Repr

/-- The signs after the `|` or `>` of a block scalar: the indentation, if it is given, and the
chomping. -/
def blockSigns? : List Char → Option (Option Nat × Chomping)
  | [] => some (none, .clip)
  | ['-'] => some (none, .strip)
  | ['+'] => some (none, .keep)
  | [c] => (indentation? c).map fun count => (some count, .clip)
  | [c, '-'] | ['-', c] => (indentation? c).map fun count => (some count, .strip)
  | [c, '+'] | ['+', c] => (indentation? c).map fun count => (some count, .keep)
  | _ => none
where
  /-- The indentation that a digit gives. -/
  indentation? (c : Char) : Option Nat :=
    if isAsciiDigit c && c != '0' then hexValue? c else none

def linesOf : List Char → List (List Char)
  | [] => []
  | c :: rest =>
      if c = '\n' then [] :: linesOf rest
      else
        match linesOf rest with
        | line :: lines => (c :: line) :: lines
        | [] => [[c]]

/-- The number of spaces at the start of a line. -/
def indentOf (line : List Char) : Nat :=
  (line.takeWhile (· == ' ')).length

/-- Whether a line holds nothing but spaces. -/
def isEmptyLine (line : List Char) : Bool :=
  line.all (· == ' ')

/-- The first lines that are empty or indented by so many spaces. -/
def blockLines (indent : Nat) (lines : List (List Char)) : List (List Char) :=
  lines.takeWhile fun line => isEmptyLine line || indent ≤ indentOf line

/-- The lines of a block without the empty ones at the end, and the number of those. -/
def splitEnd (lines : List (List Char)) : List (List Char) × Nat :=
  let ending := (lines.reverse.takeWhile (·.isEmpty)).length
  (lines.take (lines.length - ending), ending)

/-- The lines of a folded block after a line that is not empty, and after so many empty ones.  Line
breaks are folded between lines that do not start with a blank. -/
def foldAfter (before : List Char) : Nat → List (List Char) → List Char
  | _, [] => []
  | empties, [] :: lines => foldAfter before (empties + 1) lines
  | empties, line :: lines =>
      let gap :=
        if startsBlank before || startsBlank line then List.replicate (empties + 1) '\n'
        else folded (empties + 1)
      gap ++ line ++ foldAfter line 0 lines

/-- The text of the lines of a folded block, of which the last one is not empty. -/
def foldLines (lines : List (List Char)) : List Char :=
  let empties := (lines.takeWhile (·.isEmpty)).length
  List.replicate empties '\n' ++
    match lines.drop empties with
    | [] => []
    | line :: lines => line ++ foldAfter line 0 lines

/-- The text of a block scalar. -/
def blockText (fold : Bool) (chomping : Chomping) (lines : List (List Char)) : List Char :=
  let (lines, ending) := splitEnd lines
  let body := if fold then foldLines lines else ['\n'].intercalate lines
  match chomping with
  | .strip => body
  | .clip => if lines.isEmpty then [] else body ++ ['\n']
  | .keep => body ++ List.replicate (if lines.isEmpty then ending else ending + 1) '\n'

/-- A block scalar after its `|` or `>`, and the place after it.  Its lines start in the column
`least` or later. -/
def block? (fold : Bool) (least : Nat) (cursor : Cursor) : Option (List Char × Cursor) := do
  let isSign := fun c => isAsciiDigit c || c == '-' || c == '+'
  let (given, chomping) ← blockSigns? (cursor.rest.takeWhile isSign)
  let header := cursor.skipWhile isSign
  guard header.endsLine
  let lines := linesOf ((header.rest.dropWhile (· != '\n')).drop 1)
  let detected := ((lines.find? fun line => !isEmptyLine line).map indentOf).getD 0
  let indent :=
    match given with
    | some count => least - 1 + count
    | none => max detected (max least 1)
  let taken := blockLines indent lines
  let text := blockText fold chomping (taken.map (·.drop indent))
  return (text, ⟨0, ['\n'].intercalate (lines.drop taken.length)⟩)

end RowGrammar.Yaml

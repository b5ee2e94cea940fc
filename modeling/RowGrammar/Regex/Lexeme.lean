import RowGrammar.Regex.Basic
import RowGrammar.Text.Digits

/-!
# Lexemes of a character pattern

The notation of a pattern is read in two steps.  This first one cuts it into lexemes: single
positions, assertions, quantifiers, and the marks that group and divide them.  Flags such as `(?i)`
hold to the end of the group they stand in, so what a lexeme means is settled here.
-/

namespace RowGrammar.Regex

open RowGrammar.Text

/-- The flags in force at a place of a pattern. -/
structure Flags where
  ignoreCase : Bool
  multiLine : Bool
  dotAll : Bool
  swapGreed : Bool
  anyLineEnd : Bool
  /-- Whether blank characters and comments only lay the pattern out. -/
  spaced : Bool
  /-- Whether classes, boundaries and case go beyond ASCII. -/
  unicode : Bool
  deriving DecidableEq, Repr

namespace Flags

def initial : Flags := ⟨false, false, false, false, false, false, true⟩

/-- The flags after one of them is switched on or off; none for an unknown letter. -/
def set? (flags : Flags) (letter : Char) (value : Bool) : Option Flags :=
  match letter with
  | 'i' => some { flags with ignoreCase := value }
  | 'm' => some { flags with multiLine := value }
  | 's' => some { flags with dotAll := value }
  | 'U' => some { flags with swapGreed := value }
  | 'u' => some { flags with unicode := value }
  | 'R' => some { flags with anyLineEnd := value }
  | 'x' => some { flags with spaced := value }
  | _ => none

/-- The set as it is or, where case is ignored, with the case variants of its members. -/
def widen (flags : Flags) (set : CharSet) : CharSet :=
  if flags.ignoreCase then
    if flags.unicode then .anyCase set else .anyAsciiCase set
  else set

/-- The set or its complement.  In ASCII there are no complements: they would hold bytes that are no
characters. -/
def negate? (flags : Flags) (negated : Bool) (set : CharSet) : Option CharSet :=
  if negated then
    if flags.unicode then some (.complement set) else none
  else some set

/-- A class of characters, or the characters of the class in ASCII. -/
def class? (flags : Flags) (negated : Bool) (set ascii : CharSet) : Option CharSet :=
  flags.negate? negated (if flags.unicode then set else ascii)

def boundary (flags : Flags) (condition : Assertion) : Assertion :=
  if flags.unicode then condition else condition.inAscii

/-- The positions that a dot stands for. -/
def dot? (flags : Flags) : Option CharSet :=
  if !flags.unicode then none
  else if flags.dotAll then some .everything
  else if flags.anyLineEnd then some (.complement (.union (.singleton '\n') (.singleton '\r')))
  else some (.complement (.singleton '\n'))

end Flags

/-- One unit of the notation. -/
inductive Lexeme where
  /-- A position or an assertion. -/
  | atom (regex : Regex)
  /-- A group that only changes flags. -/
  | flags (flags : Flags)
  /-- The start of a group that does not capture, with the flags inside it. -/
  | openPlain (flags : Flags)
  /-- The start of a capturing group, named or not. -/
  | openCapture (name : Option String)
  | close
  | bar
  | quantifier (least : Nat) (most : Option Nat) (greedy : Bool)
  deriving DecidableEq, Repr

/-- The characters after blank ones and comments, from inside a comment or not. -/
def skipSpaces : Bool → List Char → List Char
  | _, [] => []
  | true, c :: chars => skipSpaces (c != '\n') chars
  | false, c :: chars =>
      if isBlank c then skipSpaces false chars
      else if c == '#' then skipSpaces true chars
      else c :: chars

/-- The characters after the layout, where the flags make them layout. -/
def Flags.skip (flags : Flags) (chars : List Char) : List Char :=
  if flags.spaced then skipSpaces false chars else chars

/-- The longest run of characters with a property, layout left out of it, and what follows the run
and its layout; from inside a comment or not. -/
def runOf (spaced : Bool) (holds : Char → Bool) : Bool → List Char → List Char × List Char
  | _, [] => ([], [])
  | true, c :: chars => runOf spaced holds (c != '\n') chars
  | false, c :: chars =>
      if spaced && isBlank c then runOf spaced holds false chars
      else if spaced && c == '#' then runOf spaced holds true chars
      else if holds c then
        let (run, rest) := runOf spaced holds false chars
        (c :: run, rest)
      else ([], c :: chars)

def Flags.run (flags : Flags) (holds : Char → Bool) (chars : List Char) :
    List Char × List Char :=
  runOf flags.spaced holds false chars

/-- So many characters, with layout before each of them, and what follows them. -/
def Flags.take? (flags : Flags) : Nat → List Char → Option (List Char × List Char)
  | 0, chars => some ([], chars)
  | count + 1, chars =>
      match flags.skip chars with
      | [] => none
      | c :: chars => (flags.take? count chars).map fun (taken, rest) => (c :: taken, rest)

/-- The characters up to a closing brace, and what follows the brace. -/
def Flags.braced? (flags : Flags) (chars : List Char) : Option (List Char × List Char) :=
  match flags.run (· != '}') chars with
  | (inside, '}' :: rest) => some (inside, rest)
  | _ => none

/-- The next character that ends a range if it is a dash or a bracket.  Only the first mark of a
comment counts as layout here. -/
def Flags.peek (flags : Flags) (chars : List Char) : Option Char :=
  if flags.spaced then
    match chars.dropWhile isBlank with
    | '#' :: rest => (rest.dropWhile isBlank).head?
    | rest => rest.head?
  else chars.head?

def isAscii (c : Char) : Bool :=
  c.toNat < 128

/-- The characters that a backslash turns into themselves. -/
def isEscapable (c : Char) : Bool :=
  isAscii c && !(isAsciiLetter c || isAsciiDigit c || c == '<' || c == '>')

/-- What an escape sequence, or one character of a class, stands for. -/
inductive Primitive where
  | literal (c : Char)
  | set (set : CharSet)
  | assertion (condition : Assertion)
  deriving DecidableEq, Repr

def hexadecimal? (digits : List Char) : Option Char := do
  guard (!digits.isEmpty)
  charOf? (← hexadecimalValue? digits)

/-- Reads a hexadecimal escape of `width` digits, or one in braces, after its letter.  In ASCII two
digits stand for a byte, which has to be a character by itself. -/
def hexEscape? (flags : Flags) (width : Nat) (chars : List Char) :
    Option (Char × List Char) := do
  match flags.skip chars with
  | '{' :: chars =>
      let (digits, rest) ← flags.braced? chars
      return (← hexadecimal? digits, rest)
  | chars =>
      let (digits, rest) ← flags.take? width chars
      let c ← hexadecimal? digits
      guard (flags.unicode || width != 2 || isAscii c)
      return (c, rest)

/-- The boundary that a name in braces after `\b` stands for. -/
def boundary? : String → Option Assertion
  | "start" => some .wordStart
  | "end" => some .wordEnd
  | "start-half" => some .wordStartHalf
  | "end-half" => some .wordEndHalf
  | _ => none

/-- Whether a character may stand in the name of a boundary. -/
def isBoundaryNamePart (c : Char) : Bool :=
  isAsciiLetter c || c == '-'

/-- Reads what follows `\b`: a named boundary in braces, or nothing. -/
def boundaryEscape? (flags : Flags) : List Char → Option (Assertion × List Char)
  | '{' :: chars =>
      match flags.skip chars with
      | [] => none
      | c :: _ =>
          if isBoundaryNamePart c then do
            let (name, rest) ← flags.braced? chars
            return (← boundary? (String.ofList name), rest)
          else some (.wordBoundary, '{' :: chars)
  | chars => some (.wordBoundary, chars)

/-- Reads the name of a property after `\p`: one character, or a text in braces. -/
def propertyName? (flags : Flags) (chars : List Char) : Option (List Char × List Char) :=
  match flags.skip chars with
  | [] => none
  | '{' :: chars => flags.braced? chars
  | c :: chars => if c = '\\' then none else some ([c], chars)

/-- Reads the class of the characters with a property, or of those without it. -/
def propertyEscape? (flags : Flags) (negated : Bool) (chars : List Char) :
    Option (CharSet × List Char) := do
  let (name, rest) ← propertyName? flags chars
  let property ← Property.read? name
  guard flags.unicode
  return (← flags.negate? negated (flags.widen (.property property)), rest)

/-- Reads a class that goes without a name, after its letter. -/
def classEscape? (flags : Flags) (negated : Bool) (set ascii : CharSet) (rest : List Char) :
    Option (Primitive × List Char) :=
  (flags.class? negated set ascii).map fun set => (.set set, rest)

/-- Reads an escape sequence after its backslash. -/
def escape? (flags : Flags) : List Char → Option (Primitive × List Char)
  | [] => none
  | 'x' :: chars => (hexEscape? flags 2 chars).map fun (c, rest) => (.literal c, rest)
  | 'u' :: chars => (hexEscape? flags 4 chars).map fun (c, rest) => (.literal c, rest)
  | 'U' :: chars => (hexEscape? flags 8 chars).map fun (c, rest) => (.literal c, rest)
  | 'p' :: chars => (propertyEscape? flags false chars).map fun (set, rest) => (.set set, rest)
  | 'P' :: chars => (propertyEscape? flags true chars).map fun (set, rest) => (.set set, rest)
  | 'd' :: chars => classEscape? flags false .digit .asciiDigit chars
  | 'D' :: chars => classEscape? flags true .digit .asciiDigit chars
  | 's' :: chars => classEscape? flags false .blank .asciiBlank chars
  | 'S' :: chars => classEscape? flags true .blank .asciiBlank chars
  | 'w' :: chars => classEscape? flags false .word .asciiWord chars
  | 'W' :: chars => classEscape? flags true .word .asciiWord chars
  | 'a' :: chars => some (.literal '\x07', chars)
  | 'f' :: chars => some (.literal '\x0C', chars)
  | 't' :: chars => some (.literal '\t', chars)
  | 'n' :: chars => some (.literal '\n', chars)
  | 'r' :: chars => some (.literal '\r', chars)
  | 'v' :: chars => some (.literal '\x0B', chars)
  | 'A' :: chars => some (.assertion .textStart, chars)
  | 'z' :: chars => some (.assertion .textEnd, chars)
  | 'b' :: chars => (boundaryEscape? flags chars).map fun (condition, rest) =>
      (.assertion (flags.boundary condition), rest)
  | 'B' :: chars => some (.assertion (flags.boundary .notWordBoundary), chars)
  | '<' :: chars => some (.assertion (flags.boundary .wordStart), chars)
  | '>' :: chars => some (.assertion (flags.boundary .wordEnd), chars)
  | c :: chars => if isEscapable c then some (.literal c, chars) else none

/-- Whether a bracket class can have a member: in ASCII a character beyond it cannot be one. -/
def Primitive.isMember (flags : Flags) : Primitive → Bool
  | .literal c => flags.unicode || isAscii c
  | .set _ => true
  | .assertion _ => false

def classMember? (flags : Flags) (chars : List Char) : Option (Primitive × List Char) := do
  let (primitive, rest) ←
    match chars with
    | [] => none
    | '\\' :: chars => escape? flags chars
    | c :: chars => some (.literal c, chars)
  guard (primitive.isMember flags)
  return (primitive, rest)

/-- The characters that a member of a bracket class stands for. -/
def Primitive.set? : Primitive → Option CharSet
  | .literal c => some (.singleton c)
  | .set members => some members
  | .assertion _ => none

/-- Reads a member of a bracket class or a range between two characters. -/
def classRange? (flags : Flags) (chars : List Char) : Option (CharSet × List Char) := do
  let (first, rest) ← classMember? flags chars
  let rest := flags.skip rest
  match rest with
  | [] => none
  | '-' :: after =>
      if flags.peek after = some ']' ∨ flags.peek after = some '-' then
        return (← first.set?, rest)
      else do
        let .literal low := first | none
        let (.literal high, rest) ← classMember? flags (flags.skip after) | none
        guard (low ≤ high)
        return (.range low high, rest)
  | _ => return (← first.set?, rest)

/-- Reads a named class such as `[:alpha:]` after its opening bracket, and whether it is negated. -/
def namedClass? : List Char → Option ((Bool × CharSet) × List Char)
  | ':' :: chars => do
      let (negated, chars) :=
        match chars with
        | '^' :: chars => (true, chars)
        | chars => (false, chars)
      let ':' :: ']' :: rest := chars.dropWhile (· != ':') | none
      let set ← CharSet.named? (String.ofList (chars.takeWhile (· != ':')))
      return ((negated, set), rest)
  | _ => none

/-- An operation between the members of a bracket class, with its left operand. -/
inductive Operand where
  | none
  | intersection (left : CharSet)
  | difference (left : CharSet)
  | symmetricDifference (left : CharSet)

namespace Operand

/-- The operation applied to its right operand, both with case variants where case is ignored. -/
def apply (operand : Operand) (flags : Flags) (right : CharSet) : CharSet :=
  match operand with
  | .none => right
  | .intersection left => .intersection (flags.widen left) (flags.widen right)
  | .difference left => .difference (flags.widen left) (flags.widen right)
  | .symmetricDifference left => .symmetricDifference (flags.widen left) (flags.widen right)

end Operand

/-- The members at the start of a class that stand for themselves there: a closing bracket, or any
number of dashes. -/
def leadingMembers (flags : Flags) (chars : List Char) : CharSet × List Char :=
  match chars with
  | ']' :: rest => (.union .nothing (.singleton ']'), flags.skip rest)
  | chars =>
      let (dashes, rest) := flags.run (· == '-') chars
      (dashes.foldl (fun members dash => .union members (.singleton dash)) .nothing, rest)

mutual

/-- Reads a bracket class after its opening bracket. -/
def bracket? (flags : Flags) : Nat → List Char → Option (CharSet × List Char)
  | 0, _ => none
  | fuel + 1, chars => do
      let (negated, chars) :=
        match flags.skip chars with
        | '^' :: chars => (true, flags.skip chars)
        | chars => (false, chars)
      let (leading, chars) := leadingMembers flags chars
      let (set, rest) ← members? flags fuel .none leading chars
      let set ← flags.negate? negated (flags.widen set)
      return (.bracketed set, rest)

/-- Reads members of a bracket class up to its closing bracket; `members` holds those after the
last operation. -/
def members? (flags : Flags) :
    Nat → Operand → CharSet → List Char → Option (CharSet × List Char)
  | 0, _, _, _ => none
  | fuel + 1, operand, members, chars =>
      let settled := operand.apply flags members
      match flags.skip chars with
      | [] => none
      | ']' :: rest => some (settled, rest)
      | '&' :: '&' :: rest => members? flags fuel (.intersection settled) .nothing rest
      | '-' :: '-' :: rest => members? flags fuel (.difference settled) .nothing rest
      | '~' :: '~' :: rest => members? flags fuel (.symmetricDifference settled) .nothing rest
      | '[' :: rest =>
          match namedClass? rest with
          | some ((negated, set), rest) =>
              match flags.negate? negated (flags.widen set) with
              | some set => members? flags fuel operand (.union members set) rest
              | none => none
          | none =>
              match bracket? flags fuel rest with
              | some (set, rest) => members? flags fuel operand (.union members set) rest
              | none => none
      | chars =>
          match classRange? flags chars with
          | some (set, rest) => members? flags fuel operand (.union members set) rest
          | none => none

end

/-- The longest run of digits at the start, as a number below `2 ^ 32`, and what follows it. -/
def count? (flags : Flags) (chars : List Char) : Option (Nat × List Char) := do
  let (digits, rest) := flags.run isAsciiDigit (chars.dropWhile isBlank)
  guard (!digits.isEmpty && decimalValue digits < Nat.pow 2 32)
  return (decimalValue digits, flags.skip (rest.dropWhile isBlank))

/-- Reads a counted repetition after its opening brace, up to and including the closing one. -/
def bounds? (flags : Flags) (chars : List Char) : Option (Nat × Option Nat × List Char) := do
  let (least, rest) ← count? flags (flags.skip chars)
  match rest with
  | '}' :: rest => return (least, some least, flags.skip rest)
  | ',' :: rest =>
      match flags.skip rest with
      | '}' :: rest => return (least, none, flags.skip rest)
      | rest => do
          let (most, rest) ← count? flags rest
          let '}' :: rest := rest | none
          guard (least ≤ most)
          return (least, some most, flags.skip rest)
  | _ => none

/-- The quantifier with these bounds, lazy when a question mark follows. -/
def quantifier (flags : Flags) (least : Nat) (most : Option Nat) :
    List Char → Lexeme × List Char
  | '?' :: rest => (.quantifier least most flags.swapGreed, rest)
  | rest => (.quantifier least most (!flags.swapGreed), rest)

/-- Reads flag letters up to a colon or a closing parenthesis.  No letter and no dash may come
twice, and a letter has to follow the dash. -/
def flagLetters? : Flags → List Char → List Char → Option (Flags × List Char × List Char)
  | _, _, [] => none
  | flags, read, c :: chars =>
      if c = ':' ∨ c = ')' then
        if read.head? = some '-' then none else some (flags, read, c :: chars)
      else if read.contains c then none
      else if c = '-' then flagLetters? flags (c :: read) chars
      else
        match flags.set? c (!read.contains '-') with
        | some flags => flagLetters? flags (c :: read) chars
        | none => none

/-- Whether a character may stand in the name of a group. -/
def isGroupNamePart (first : Bool) (c : Char) : Bool :=
  if first then c == '_' || isAlphabetic c
  else c == '_' || c == '.' || c == '[' || c == ']' || isAlphanumeric c

/-- Reads the name of a group and the angle bracket that ends it. -/
def groupName? (chars : List Char) : Option (Lexeme × List Char) := do
  let name := chars.takeWhile (· != '>')
  let '>' :: rest := chars.dropWhile (· != '>') | none
  let c :: others := name | none
  guard (isGroupNamePart true c && others.all (isGroupNamePart false))
  return (.openCapture (some (String.ofList name)), rest)

/-- Reads the start of a group after its parenthesis.  Looking around is not supported. -/
def groupStart? (flags : Flags) (chars : List Char) : Option (Lexeme × List Char) :=
  match flags.skip chars with
  | '?' :: 'P' :: '<' :: rest => groupName? rest
  | '?' :: '<' :: '=' :: _ | '?' :: '<' :: '!' :: _ => none
  | '?' :: '<' :: rest => groupName? rest
  | '?' :: rest => do
      let (inner, read, rest) ← flagLetters? flags [] rest
      match rest with
      | ')' :: rest => if read.isEmpty then none else some (.flags inner, rest)
      | _ :: rest => some (.openPlain inner, rest)
      | [] => none
  | rest => some (.openCapture none, rest)

/-- One position that holds a given character. -/
def literalChar (flags : Flags) (c : Char) : Lexeme :=
  .atom (.char (flags.widen (.singleton c)))

/-- Reads one lexeme from a pattern that does not start with layout. -/
def lexeme? (flags : Flags) : List Char → Option (Lexeme × List Char)
  | [] => none
  | '(' :: chars => groupStart? flags chars
  | ')' :: chars => some (.close, chars)
  | '|' :: chars => some (.bar, chars)
  | '[' :: chars =>
      (bracket? flags (2 * chars.length + 2) chars).map fun (set, rest) => (.atom (.char set), rest)
  | '?' :: chars => some (quantifier flags 0 (some 1) chars)
  | '*' :: chars => some (quantifier flags 0 none chars)
  | '+' :: chars => some (quantifier flags 1 none chars)
  | '{' :: chars =>
      (bounds? flags chars).map fun (least, most, rest) => quantifier flags least most rest
  | '.' :: chars => flags.dot?.map fun set => (.atom (.char set), chars)
  | '^' :: chars =>
      let condition : Assertion :=
        if !flags.multiLine then .textStart
        else if flags.anyLineEnd then .anyLineStart
        else .lineStart
      some (.atom (.assertion condition), chars)
  | '$' :: chars =>
      let condition : Assertion :=
        if !flags.multiLine then .textEnd
        else if flags.anyLineEnd then .anyLineEnd
        else .lineEnd
      some (.atom (.assertion condition), chars)
  | '\\' :: chars =>
      (escape? flags chars).map fun (primitive, rest) =>
        match primitive with
        | .literal c => (literalChar flags c, rest)
        | .set set => (.atom (.char set), rest)
        | .assertion condition => (.atom (.assertion condition), rest)
  | c :: chars => some (literalChar flags c, chars)

/-- The lexemes of a pattern.  `outer` holds the flags around each open group; `fuel` bounds the
number of lexemes. -/
def lexemesFrom : Nat → Flags → List Flags → List Char → Option (List Lexeme)
  | 0, _, _, _ => none
  | fuel + 1, flags, outer, chars =>
      match flags.skip chars with
      | [] => some []
      | chars => do
          let (lexeme, rest) ← lexeme? flags chars
          let lexemes ←
            match lexeme, outer with
            | .flags inner, _ => lexemesFrom fuel inner outer rest
            | .openPlain inner, _ => lexemesFrom fuel inner (flags :: outer) rest
            | .openCapture _, _ => lexemesFrom fuel flags (flags :: outer) rest
            | .close, around :: outer => lexemesFrom fuel around outer rest
            | .close, [] => none
            | _, _ => lexemesFrom fuel flags outer rest
          return lexeme :: lexemes

def lexemes? (pattern : List Char) : Option (List Lexeme) :=
  lexemesFrom (pattern.length + 1) .initial [] pattern

end RowGrammar.Regex

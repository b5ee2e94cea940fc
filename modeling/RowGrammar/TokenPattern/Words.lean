import RowGrammar.Text.CharClass

/-!
# Words of a token pattern

A token pattern refers to other node types by words: runs of at least two letters or underscores.
Letters that belong to the notation of the pattern are no words, namely those of escape sequences,
bracket classes, counted repetitions and group headers.  A scan gives every character its role,
and the pattern is then cut into segments, of which some are words.
-/

namespace RowGrammar.TokenPattern

open RowGrammar.Text

/-- What the scan waits for before it reads plain pattern text again. -/
inductive Pending where
  /-- Plain pattern text. -/
  | nothing
  /-- The character that a backslash escapes. -/
  | escaped
  /-- The argument of an escape: a braced one, or so many characters. -/
  | argument (width : Nat)
  /-- So many further characters, one at least. -/
  | skip (more : Nat)
  /-- All characters up to and including a closing one. -/
  | through (close : Char)
  /-- What follows an opening parenthesis. -/
  | opened
  /-- What follows `(?`. -/
  | header
  /-- What follows `(?P` or `(?<`. -/
  | named
  /-- What follows the angle bracket of a named group or a lookbehind. -/
  | angle
  /-- The flags of a group header. -/
  | flags
  deriving DecidableEq, Repr

/-- The state of the scan: how many bracket classes are open, and what it waits for. -/
structure ScanState where
  depth : Nat
  pending : Pending
  deriving DecidableEq, Repr

namespace ScanState

/-- Outside of all notation. -/
def start : ScanState := ⟨0, .nothing⟩

/-- What an escape sequence still takes after its letter. -/
def afterEscape (letter : Char) : Pending :=
  if letter = 'x' then .argument 2
  else if letter = 'u' then .argument 4
  else if letter = 'U' then .argument 8
  else if letter = 'p' ∨ letter = 'P' then .argument 1
  else .nothing

/-- Reads one character where nothing is awaited. -/
def plain (depth : Nat) (c : Char) : ScanState :=
  if c = '\\' then ⟨depth, .escaped⟩
  else if c = '[' then ⟨depth + 1, .nothing⟩
  else if c = ']' then ⟨depth - 1, .nothing⟩
  else if 0 < depth then ⟨depth, .nothing⟩
  else if c = '{' then ⟨0, .through '}'⟩
  else if c = '(' then ⟨0, .opened⟩
  else ⟨0, .nothing⟩

/-- Reads one of `more + 1` characters to be skipped. -/
def skipped (depth more : Nat) : ScanState :=
  match more with
  | 0 => ⟨depth, .nothing⟩
  | more + 1 => ⟨depth, .skip (more + 1)⟩

/-- Reads a character of a header whose angle bracket, if any, has been read. -/
def inName (depth : Nat) (c : Char) : ScanState :=
  if c = '=' ∨ c = '!' ∨ c = '>' then ⟨depth, .nothing⟩ else ⟨depth, .through '>'⟩

def next (state : ScanState) (c : Char) : ScanState :=
  match state.pending with
  | .nothing => plain state.depth c
  | .escaped => ⟨state.depth, afterEscape c⟩
  | .argument width =>
      if c = '{' then ⟨state.depth, .through '}'⟩ else skipped state.depth (width - 1)
  | .skip more => skipped state.depth (more - 1)
  | .through close => ⟨state.depth, if c = close then .nothing else .through close⟩
  | .opened => if c = '?' then ⟨state.depth, .header⟩ else plain state.depth c
  | .header =>
      if c = 'P' ∨ c = '<' then ⟨state.depth, .named⟩
      else if isAsciiLetter c ∨ c = '-' then ⟨state.depth, .flags⟩
      else plain state.depth c
  | .named => if c = '<' then ⟨state.depth, .angle⟩ else inName state.depth c
  | .angle => inName state.depth c
  | .flags => if isAsciiLetter c ∨ c = '-' then ⟨state.depth, .flags⟩ else plain state.depth c

/-- Whether the next character is plain pattern text unless it opens some notation. -/
def readsText (state : ScanState) (c : Char) : Bool :=
  state.depth == 0 &&
    match state.pending with
    | .nothing | .opened => true
    | .header => !(c == 'P' || isAsciiLetter c)
    | .flags => !isAsciiLetter c
    | _ => false

end ScanState

/-- Every character of a pattern with the mark whether it may belong to a word. -/
def marked : ScanState → List Char → List (Char × Bool)
  | _, [] => []
  | state, c :: chars =>
      (c, state.readsText c && isNameLetter c) :: marked (state.next c) chars

/-- A stretch of a token pattern. -/
inductive Segment where
  | word (chars : List Char)
  | verbatim (chars : List Char)
  deriving DecidableEq, Repr

namespace Segment

def chars : Segment → List Char
  | .word chars => chars
  | .verbatim chars => chars

/-- The segment for a run of equally marked characters. -/
def ofRun (run : List (Char × Bool)) : Segment :=
  if 2 ≤ run.length ∧ run.all (·.2) then .word (run.map (·.1)) else .verbatim (run.map (·.1))

end Segment

/-- A pattern cut where its marks change. -/
def segments (pattern : List Char) : List Segment :=
  ((marked .start pattern).splitBy (·.2 == ·.2)).map Segment.ofRun

/-- A word of a pattern and the byte offsets it lies between. -/
structure Word where
  start : Nat
  stop : Nat
  text : String
  deriving DecidableEq, Repr

/-- The words among segments of which the first starts at `offset`. -/
def wordsFrom (offset : Nat) : List Segment → List Word
  | [] => []
  | .word chars :: rest =>
      let stop := offset + utf8Length chars
      ⟨offset, stop, String.ofList chars⟩ :: wordsFrom stop rest
  | .verbatim chars :: rest => wordsFrom (offset + utf8Length chars) rest

/-- The words of a token pattern in order. -/
def words (pattern : String) : List Word :=
  wordsFrom 0 (segments pattern.toList)

/-- The characters of a pattern without the blank ones that no backslash escapes. -/
def stripChars : List Char → List Char
  | [] => []
  | '\\' :: [] => ['\\']
  | '\\' :: escaped :: chars => '\\' :: escaped :: stripChars chars
  | c :: chars => if isBlank c then stripChars chars else c :: stripChars chars

/-- A pattern without the blank characters that only lay it out. -/
def strip (pattern : String) : String :=
  String.ofList (stripChars pattern.toList)

end RowGrammar.TokenPattern

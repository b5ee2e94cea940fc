import RowGrammar.Text.CaseVariants
import RowGrammar.Text.Property

/-!
# Sets of characters

What one position of a character pattern accepts.
-/

namespace RowGrammar.Regex

open RowGrammar.Text

/-- A set of characters as a pattern describes it. -/
inductive CharSet where
  | nothing
  | everything
  | range (low high : Char)
  | digit
  | blank
  | word
  | property (property : Property)
  | complement (set : CharSet)
  | union (left right : CharSet)
  | intersection (left right : CharSet)
  | difference (left right : CharSet)
  | symmetricDifference (left right : CharSet)
  /-- The set together with every case variant of its members. -/
  | anyCase (set : CharSet)
  /-- The set together with the ASCII letters that differ from its members in case. -/
  | anyAsciiCase (set : CharSet)
  /-- The set that a bracket class describes. -/
  | bracketed (set : CharSet)
  deriving DecidableEq, Repr

namespace CharSet

def singleton (c : Char) : CharSet :=
  .range c c

def contains : CharSet → Char → Bool
  | .nothing, _ => false
  | .everything, _ => true
  | .range low high, c => low ≤ c && c ≤ high
  | .digit, c => isDecimalDigit c
  | .blank, c => isBlank c
  | .word, c => isWord c
  | .property meant, c => meant.contains c
  | .complement set, c => !set.contains c
  | .union left right, c => left.contains c || right.contains c
  | .intersection left right, c => left.contains c && right.contains c
  | .difference left right, c => left.contains c && !right.contains c
  | .symmetricDifference left right, c => left.contains c != right.contains c
  | .anyCase set, c =>
      set.contains c || (caseVariants c.toNat).any fun code => set.contains (Char.ofNat code)
  | .anyAsciiCase set, c => set.contains c.toLower || set.contains c.toUpper
  | .bracketed set, c => set.contains c

mutual

/-- How deeply bracket classes, lists of members and operations are nested in a set. -/
def depth : CharSet → Nat
  | .bracketed set => set.bodyDepth + 1
  | _ => 0

/-- How deeply the body of a bracket class is nested. -/
def bodyDepth : CharSet → Nat
  | .complement set | .anyCase set | .anyAsciiCase set => set.bodyDepth
  | .intersection left right | .difference left right | .symmetricDifference left right =>
      max left.bodyDepth right.bodyDepth + 1
  | .union .nothing member => member.depth
  | .union members member => max members.membersDepth member.depth + 1
  | _ => 0

/-- How deeply the members of a list are nested. -/
def membersDepth : CharSet → Nat
  | .union members member => max members.membersDepth member.depth
  | _ => 0

end

/-- The union of some ranges of ASCII characters. -/
def ofRanges (ranges : List (Char × Char)) : CharSet :=
  ranges.foldr (fun range set => .union (.range range.1 range.2) set) .nothing

/-- Decimal digits in ASCII. -/
def asciiDigit : CharSet :=
  ofRanges [('0', '9')]

/-- Blank characters in ASCII. -/
def asciiBlank : CharSet :=
  ofRanges [('\t', '\r'), (' ', ' ')]

/-- Word characters in ASCII. -/
def asciiWord : CharSet :=
  ofRanges [('0', '9'), ('A', 'Z'), ('_', '_'), ('a', 'z')]

/-- The class that a name between `[:` and `:]` stands for. -/
def named? : String → Option CharSet
  | "alnum" => some (ofRanges [('0', '9'), ('A', 'Z'), ('a', 'z')])
  | "alpha" => some (ofRanges [('A', 'Z'), ('a', 'z')])
  | "ascii" => some (ofRanges [('\x00', '\x7F')])
  | "blank" => some (ofRanges [('\t', '\t'), (' ', ' ')])
  | "cntrl" => some (ofRanges [('\x00', '\x1F'), ('\x7F', '\x7F')])
  | "digit" => some asciiDigit
  | "graph" => some (ofRanges [('!', '~')])
  | "lower" => some (ofRanges [('a', 'z')])
  | "print" => some (ofRanges [(' ', '~')])
  | "punct" => some (ofRanges [('!', '/'), (':', '@'), ('[', '\x60'), ('\x7B', '~')])
  | "space" => some asciiBlank
  | "upper" => some (ofRanges [('A', 'Z')])
  | "word" => some asciiWord
  | "xdigit" => some (ofRanges [('0', '9'), ('A', 'F'), ('a', 'f')])
  | _ => none

end CharSet

end RowGrammar.Regex

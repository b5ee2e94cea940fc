import RowGrammar.Regex.CharSet

/-!
# Character patterns

The regular expressions that token patterns are written in, after their notation has been read.
-/

namespace RowGrammar

open RowGrammar.Text

namespace Regex

/-- A condition on the characters before and after a position. -/
inductive Assertion where
  | textStart
  | textEnd
  | lineStart
  | lineEnd
  /-- The start of a line that a line feed, a carriage return or both together end. -/
  | anyLineStart
  | anyLineEnd
  | wordBoundary
  | notWordBoundary
  | wordStart
  | wordEnd
  | wordStartHalf
  | wordEndHalf
  /-- The same boundaries, with the word characters in ASCII only. -/
  | asciiWordBoundary
  | notAsciiWordBoundary
  | asciiWordStart
  | asciiWordEnd
  | asciiWordStartHalf
  | asciiWordEndHalf
  deriving DecidableEq, Repr

/-- Whether there is a word character at one side of a position. -/
def wordAt : Option Char → Bool
  | some c => isWord c
  | none => false

/-- Whether there is a word character in ASCII at one side of a position. -/
def asciiWordAt : Option Char → Bool
  | some c => isNameLetter c || isAsciiDigit c
  | none => false

/-- Whether an assertion holds between two neighbours, absent at either end of the text. -/
def Assertion.holds : Assertion → Option Char → Option Char → Bool
  | .textStart, before, _ => before.isNone
  | .textEnd, _, after => after.isNone
  | .lineStart, before, _ => before.isNone || before == some '\n'
  | .lineEnd, _, after => after.isNone || after == some '\n'
  | .anyLineStart, before, after =>
      before.isNone || before == some '\n' || (before == some '\r' && after != some '\n')
  | .anyLineEnd, before, after =>
      after.isNone || after == some '\r' || (after == some '\n' && before != some '\r')
  | .wordBoundary, before, after => wordAt before != wordAt after
  | .notWordBoundary, before, after => wordAt before == wordAt after
  | .wordStart, before, after => !wordAt before && wordAt after
  | .wordEnd, before, after => wordAt before && !wordAt after
  | .wordStartHalf, before, _ => !wordAt before
  | .wordEndHalf, _, after => !wordAt after
  | .asciiWordBoundary, before, after => asciiWordAt before != asciiWordAt after
  | .notAsciiWordBoundary, before, after => asciiWordAt before == asciiWordAt after
  | .asciiWordStart, before, after => !asciiWordAt before && asciiWordAt after
  | .asciiWordEnd, before, after => asciiWordAt before && !asciiWordAt after
  | .asciiWordStartHalf, before, _ => !asciiWordAt before
  | .asciiWordEndHalf, _, after => !asciiWordAt after

/-- The same boundary by the word characters in ASCII. -/
def Assertion.inAscii : Assertion → Assertion
  | .wordBoundary => .asciiWordBoundary
  | .notWordBoundary => .notAsciiWordBoundary
  | .wordStart => .asciiWordStart
  | .wordEnd => .asciiWordEnd
  | .wordStartHalf => .asciiWordStartHalf
  | .wordEndHalf => .asciiWordEndHalf
  | condition => condition

end Regex

/-- A character pattern. -/
inductive Regex where
  | empty
  /-- One character of a set. -/
  | char (set : Regex.CharSet)
  | assertion (condition : Regex.Assertion)
  | seq (first second : Regex)
  /-- The first pattern or, failing that, the second. -/
  | either (first second : Regex)
  /-- At least `least` and at most `most` times the body, as often as possible when greedy. -/
  | loop (body : Regex) (least : Nat) (most : Option Nat) (greedy : Bool)
  /-- A parenthesized pattern, numbered when it captures. -/
  | group (index : Option Nat) (body : Regex)
  deriving DecidableEq, Repr

namespace Regex

/-- The patterns one after the other. -/
def sequence : List Regex → Regex
  | [] => .empty
  | [item] => item
  | item :: items => .seq item (sequence items)

/-- The first of the patterns that matches. -/
def choice : List Regex → Regex
  | [] => .empty
  | [branch] => branch
  | branch :: branches => .either branch (choice branches)

def captureCount : Regex → Nat
  | .empty | .char _ | .assertion _ => 0
  | .seq first second | .either first second => first.captureCount + second.captureCount
  | .loop body _ _ _ => body.captureCount
  | .group index body => (if index.isSome then 1 else 0) + body.captureCount

mutual

/-- How deeply sequences, choices, loops, groups and bracket classes are nested. -/
def height : Regex → Nat
  | .empty | .assertion _ => 0
  | .char set => set.depth
  | .seq first second => max first.height second.sequenceHeight + 1
  | .either first second => max first.height second.choiceHeight + 1
  | .loop body _ _ _ => body.height + 1
  | .group _ body => body.height + 1

/-- The greatest height among the items of a sequence. -/
def sequenceHeight : Regex → Nat
  | .seq first second => max first.height second.sequenceHeight
  | .empty | .assertion _ => 0
  | .char set => set.depth
  | .either first second => max first.height second.choiceHeight + 1
  | .loop body _ _ _ => body.height + 1
  | .group _ body => body.height + 1

/-- The greatest height among the branches of a choice. -/
def choiceHeight : Regex → Nat
  | .either first second => max first.height second.choiceHeight
  | .empty | .assertion _ => 0
  | .char set => set.depth
  | .seq first second => max first.height second.sequenceHeight + 1
  | .loop body _ _ _ => body.height + 1
  | .group _ body => body.height + 1

end

end Regex

end RowGrammar

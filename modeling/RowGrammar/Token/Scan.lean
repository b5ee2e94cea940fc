import RowGrammar.Token.Basic
import RowGrammar.Token.Tokenizer

/-!
# Scanning

A scan goes through a text from left to right.  It takes the leftmost match of the tokenizer, and
where that match is empty the first alternative that is not.  Text between matches is one
unrecognized piece, or an error in strict mode.  The text of an alternative with a sub-parser is
scanned again by the tokenizer of that parser.
-/

namespace RowGrammar

open RowGrammar.Text

/-- The pieces found, and the error that ended the scan, if any. -/
structure Scanned where
  pieces : List Piece
  failure : Option TokenizeError
  deriving DecidableEq, Repr

namespace Scanned

def none : Scanned := ⟨[], .none⟩

def piece (nodeType : NodeTypeId) (text : Array Char) : Scanned :=
  ⟨[⟨nodeType, String.ofList text.toList⟩], .none⟩

def fail (error : TokenizeError) : Scanned := ⟨[], some error⟩

/-- Goes on with a scan unless it has failed. -/
def andThen (first : Scanned) (next : Unit → Scanned) : Scanned :=
  match first.failure with
  | some _ => first
  | .none =>
      let second := next ()
      ⟨first.pieces ++ second.pieces, second.failure⟩

end Scanned

/-- How deeply sub-parsers may be nested. -/
def maxSubparserDepth : Nat := 64

/-- How much of an unrecognized text an error shows. -/
def shownLength : Nat := 20

/-- The offset of a position in the outermost text, for a text that starts at `base` there. -/
def outerOffset (text : Array Char) (base position : Nat) : Nat :=
  base + utf8Length (text.extract 0 position).toList

structure ScanContext where
  registry : Registry
  tokenizers : List Tokenizer
  strict : Bool

namespace ScanContext

variable (context : ScanContext)

/-- The text from `start` to `stop`, which no token pattern matches.  The whole text starts at
`base` in the outermost text. -/
def unrecognized (parser : String) (text : Array Char) (base start stop : Nat) : Scanned :=
  if start < stop then
    if context.strict then
      .fail (.noMatch parser (outerOffset text base start)
        (String.ofList ((text.extract start stop).toList.take shownLength)))
    else .piece RowGrammar.unrecognized (text.extract start stop)
  else .none

/-- The alternative that takes part in a match that is not empty. -/
def winner (tokenizer : Tokenizer) (text : Array Char) (base : Nat) (found : Regex.Match) :
    Except TokenizeError Alternative :=
  match tokenizer.alternatives.filter (found.groups.contains ·.group) with
  | [] => .error (.noAlternative tokenizer.parser (outerOffset text base found.start))
  | [alternative] => .ok alternative
  | alternatives =>
      .error (.multipleAlternatives tokenizer.parser (outerOffset text base found.start)
        (alternatives.map fun alternative => context.registry.name alternative.nodeType))

/-- Scans from `position` on.  Text from `gap` on is still without a token; `fuel` bounds how many
characters are left. -/
def scanFrom (delegate : String → Array Char → Nat → Scanned) (tokenizer : Tokenizer)
    (composite : Regex) (text : Array Char) (base : Nat) : Nat → Nat → Nat → Scanned
  | 0, gap, _ => context.unrecognized tokenizer.parser text base gap text.size
  | fuel + 1, gap, position =>
      let rest := fun (_ : Unit) =>
        context.unrecognized tokenizer.parser text base gap text.size
      let take := fun (alternative : Alternative) (start stop : Nat) =>
        (context.unrecognized tokenizer.parser text base gap start).andThen fun _ =>
          Scanned.andThen
            (match alternative.subparser with
            | some parser =>
                delegate parser (text.extract start stop) (outerOffset text base start)
            | .none => .piece alternative.nodeType (text.extract start stop))
            fun _ => scanFrom delegate tokenizer composite text base fuel stop stop
      if text.size ≤ position then rest ()
      else
        match composite.find? text position with
        | .none => rest ()
        | some found =>
            if found.isEmpty then
              match tokenizer.nonEmptyAt text found.start with
              | some (alternative, stop) => take alternative found.start stop
              | .none =>
                  scanFrom delegate tokenizer composite text base fuel gap (found.start + 1)
            else
              match context.winner tokenizer text base found with
              | .ok alternative => take alternative found.start found.stop
              | .error error => .fail error

/-- Scans a text that starts at `base` in the outermost one; `levels` bounds how deeply sub-parsers
may still be nested. -/
def scanWith : Nat → String → Array Char → Nat → Scanned
  | 0, parser, _, _ => .fail (.subparserDepth parser maxSubparserDepth)
  | levels + 1, parser, text, base =>
      match context.tokenizers.find? (·.parser == parser) with
      | .none => .fail (.unknownParser parser)
      | some tokenizer =>
          match tokenizer.composite with
          | .none => context.unrecognized parser text base 0 text.size
          | some composite =>
              context.scanFrom (scanWith levels) tokenizer composite text base (text.size + 1) 0 0

/-- Scans a whole text with the tokenizer of a parser. -/
def scan (parser : String) (text : String) : Scanned :=
  context.scanWith (maxSubparserDepth + 1) parser text.toList.toArray 0

end ScanContext

end RowGrammar

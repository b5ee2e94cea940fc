import RowGrammar.Grammar.Basic
import RowGrammar.Regex.Match
import RowGrammar.Regex.Parse

/-!
# Tokenizers

The tokenizer of a parser is one character pattern: the expanded patterns of its token types in
order, each in a capturing group of its own.  The group that takes part in a match tells the token
type.
-/

namespace RowGrammar

/-- One token type of a tokenizer. -/
structure Alternative where
  nodeType : NodeTypeId
  /-- The capturing group around the pattern within the pattern of the whole tokenizer. -/
  group : Nat
  /-- The pattern by itself. -/
  regex : Regex
  /-- The parser whose tokenizer reads the matched text instead. -/
  subparser : Option String
  deriving DecidableEq, Repr

structure Tokenizer where
  parser : String
  /-- None if the parser has no token types. -/
  composite : Option Regex
  alternatives : List Alternative
  deriving DecidableEq, Repr

namespace Tokenizer

/-- The pattern of a whole tokenizer. -/
def compositePattern (patterns : List String) : String :=
  "|".intercalate (patterns.map fun pattern => "(" ++ pattern ++ ")")

/-- The alternatives for token types with their expanded patterns, of which the first gets the
capturing group `group`. -/
def compileAlternatives (grammar : Grammar) :
    Nat → List (NodeTypeId × String) → Except GrammarError (List Alternative)
  | _, [] => .ok []
  | group, (id, pattern) :: types =>
      match Regex.parse? pattern with
      | none => .error (.invalidTokenPattern (grammar.registry.name id))
      | some regex => do
          let alternatives ←
            compileAlternatives grammar (group + regex.captureCount + 1) types
          let subparser := (grammar.tokenRule? id).bind (·.subparser)
          return ⟨id, group, regex, subparser⟩ :: alternatives

/-- Compiles the tokenizer of a parser from the expanded patterns of all token types. -/
def compile (grammar : Grammar) (expanded : List (NodeTypeId × String)) (table : ParserTable) :
    Except GrammarError Tokenizer := do
  let types := table.tokenTypes.filterMap fun id => (expanded.lookup id).map (id, ·)
  let alternatives ← compileAlternatives grammar 1 types
  if types.isEmpty then return ⟨table.name, none, []⟩
  else
    match Regex.parse? (compositePattern (types.map (·.2))) with
    | none => .error (.invalidTokenPattern table.name)
    | some composite => return ⟨table.name, some composite, alternatives⟩

/-- The first alternative whose own match at a position is not empty, and where that match stops. -/
def nonEmptyAt (tokenizer : Tokenizer) (text : Array Char) (position : Nat) :
    Option (Alternative × Nat) :=
  tokenizer.alternatives.findSome? fun alternative =>
    match alternative.regex.matchAt text position with
    | some found => if found.isEmpty then none else some (alternative, found.stop)
    | none => none

end Tokenizer

end RowGrammar

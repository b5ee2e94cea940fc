import RowGrammar.Grammar.Registry
import RowGrammar.Grammar.Row

/-!
# Grammars

A loaded grammar: its rows, the node types they define, and per parser the tables that tokenizing
and reduction work from.
-/

namespace RowGrammar

/-- The number of a parser rule within its grammar. -/
abbrev RuleId := Nat

/-- A node type with a token pattern. -/
structure TokenRule where
  nodeType : NodeTypeId
  parser : String
  pattern : String
  subparser : Option String
  deriving DecidableEq, Repr

/-- A node type with a parse pattern, and the index of its row. -/
structure ParserRule where
  nodeType : NodeTypeId
  parser : String
  pattern : String
  subparser : Option String
  precedence : String
  row : Nat
  deriving DecidableEq, Repr

/-- Parser rules that are tried together. -/
structure PrecedenceGroup where
  key : String
  rules : List RuleId
  deriving DecidableEq, Repr

/-- What one parser works from: the token types in the order they are tried, and the precedence
groups in the order they are applied. -/
structure ParserTable where
  name : String
  tokenTypes : List NodeTypeId
  groups : List PrecedenceGroup
  deriving DecidableEq, Repr

/-- A grammar; the number of a parser rule is its position. -/
structure Grammar where
  rows : Array Row
  registry : Registry
  mainParser : String
  tokenRules : Array TokenRule
  parserRules : Array ParserRule
  parsers : List ParserTable
  /-- The token types whose tokens never reach the parser. -/
  suppressed : List NodeTypeId
  /-- The token types that no pattern refers to. -/
  unused : List NodeTypeId
  deriving DecidableEq, Repr

namespace Grammar

def parser? (grammar : Grammar) (name : String) : Option ParserTable :=
  grammar.parsers.find? (·.name == name)

def tokenRule? (grammar : Grammar) (id : NodeTypeId) : Option TokenRule :=
  grammar.tokenRules.find? (·.nodeType == id)

def isSuppressed (grammar : Grammar) (id : NodeTypeId) : Bool :=
  grammar.suppressed.contains id

/-- The name of the node type of a parser rule. -/
def ruleName (grammar : Grammar) (id : RuleId) : String :=
  match grammar.parserRules[id]? with
  | some rule => grammar.registry.name rule.nodeType
  | none => unrecognizedName

end Grammar

end RowGrammar

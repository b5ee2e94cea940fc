import RowGrammar.Text.CharClass

/-!
# Grammar rows

One row describes one node type: the parser it belongs to, either a token pattern or a parse
pattern, and optionally its primitive type, its group, its precedence key and a sub-parser.
-/

namespace RowGrammar

open RowGrammar.Text

/-- One row of a grammar; columns that are not given are empty. -/
structure Row where
  parser : String := ""
  nodeType : String := ""
  tokenPattern : String := ""
  parsePattern : String := ""
  primitiveType : String := ""
  group : String := ""
  precedence : String := ""
  subparser : String := ""
  deriving DecidableEq, Repr

namespace Row

def token (parser nodeType pattern : String) : Row :=
  { parser, nodeType, tokenPattern := pattern }

/-- A row for a production in a precedence group. -/
def production (parser nodeType pattern precedence : String) : Row :=
  { parser, nodeType, parsePattern := pattern, precedence }

/-- A row without a parser separates other rows and says nothing. -/
def isBlank (row : Row) : Bool :=
  isBlankText row.parser

def isTokenRow (row : Row) : Bool :=
  !isBlankText row.tokenPattern

def isParserRow (row : Row) : Bool :=
  !isBlankText row.parsePattern

/-- The row without blank characters around its columns, the two patterns apart. -/
def trimmed (row : Row) : Row :=
  { row with
    parser := trim row.parser
    nodeType := trim row.nodeType
    primitiveType := trim row.primitiveType
    group := trim row.group
    precedence := trim row.precedence
    subparser := trim row.subparser }

/-- The columns of a row in their order, each with its heading. -/
def columns (row : Row) : List (String × String) := [
  ("parser", row.parser), ("nodetype", row.nodeType), ("tokenizepattern", row.tokenPattern),
  ("parsepattern", row.parsePattern), ("primitivetype", row.primitiveType),
  ("nodegroup", row.group), ("precedence", row.precedence), ("subparser", row.subparser)]

end Row

end RowGrammar

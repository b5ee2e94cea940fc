import RowGrammar.NodeTable
import RowGrammar.Text.Quoted

/-!
# Tokens

Tokenizing cuts a text into pieces, each with a node type.  Pieces become tokens by getting a
number and, unless their type is suppressed, a node.
-/

namespace RowGrammar

open RowGrammar.Text

/-- A stretch of the input and its node type. -/
structure Piece where
  nodeType : NodeTypeId
  text : String
  deriving DecidableEq, Repr

/-- A piece with its position among all tokens and its node. -/
structure Token where
  nodeType : NodeTypeId
  text : String
  index : Nat
  /-- None for tokens that never reach the parser. -/
  node : Option NodeId
  deriving DecidableEq, Repr

namespace Token

def isUnrecognized (token : Token) : Bool :=
  token.nodeType == unrecognized

/-- Whether the token takes part in parsing. -/
def isSignificant (token : Token) : Bool :=
  token.node.isSome

/-- The entry of a token in the sequence to be reduced. -/
def symbol? (token : Token) : Option Symbol :=
  token.node.map fun node => ⟨token.nodeType, node⟩

end Token

/-- Why a text cannot be tokenized. -/
inductive TokenizeError where
  /-- In strict mode, text that no token pattern matches. -/
  | noMatch (parser : String) (offset : Nat) (text : String)
  /-- A match in which no alternative takes part. -/
  | noAlternative (parser : String) (offset : Nat)
  /-- A match in which several alternatives take part. -/
  | multipleAlternatives (parser : String) (offset : Nat) (nodeTypes : List String)
  | unknownParser (parser : String)
  | subparserDepth (parser : String) (limit : Nat)
  deriving DecidableEq, Repr

def TokenizeError.message : TokenizeError → String
  | .noMatch parser offset text =>
      "parser " ++ parser ++ ": no tokenizePattern matches at offset " ++ decimal offset ++ ": " ++
        quoted text
  | .noAlternative parser offset =>
      "parser " ++ parser ++ ": match at offset " ++ decimal offset ++
        " has no matching alternative"
  | .multipleAlternatives parser offset nodeTypes =>
      "parser " ++ parser ++ ": match at offset " ++ decimal offset ++
        " is claimed by several nodeTypes: " ++ ", ".intercalate nodeTypes
  | .unknownParser parser => "parser " ++ parser ++ " has no rules"
  | .subparserDepth parser limit =>
      "parser " ++ parser ++ ": subParser nesting exceeds " ++ decimal limit ++ " levels"

end RowGrammar

import RowGrammar.Text.Digits

/-!
# Grammar errors

The reasons for which rows make no grammar.
-/

namespace RowGrammar

open RowGrammar.Text

/-- Why a list of rows is rejected. -/
inductive GrammarError where
  | invalidNodeTypeName (name : String)
  | duplicateNodeType (name : String)
  /-- A name used both for a node type and for a group. -/
  | nameCollision (name : String)
  | missingPattern (nodeType : String)
  | bothPatterns (nodeType : String)
  | backslashInParsePattern (nodeType : String)
  | inconsistentPrimitiveType (nodeType existing requested : String)
  | unresolvedReference (nodeType reference : String)
  /-- The node types of a cycle of references, the first of them again at the end. -/
  | expansionCycle (path : List String)
  | precedenceRedeclared (parser precedence : String)
  | unknownSubparser (nodeType subparser : String)
  | tooManyNodeTypes (limit : Nat)
  /-- A token pattern, or the pattern of all tokens of a parser, is no valid character pattern. -/
  | invalidTokenPattern (name : String)
  | captureGroupCount (nodeType : String) (found : Nat)
  | malformedParsePattern (nodeType : String) (offset : Nat) (reason : String)
  deriving DecidableEq, Repr

def GrammarError.message : GrammarError → String
  | .invalidNodeTypeName name => "nodeType " ++ name ++ ": contains invalid characters"
  | .duplicateNodeType name => "nodeType " ++ name ++ ": defined more than once"
  | .nameCollision name => name ++ ": used both as nodeType and nodeGroup"
  | .missingPattern nodeType =>
      "nodeType " ++ nodeType ++ ": tokenizePattern or parsePattern must be defined"
  | .bothPatterns nodeType =>
      "nodeType " ++ nodeType ++
        ": only one of tokenizePattern or parsePattern must be defined, not both"
  | .backslashInParsePattern nodeType =>
      "nodeType " ++ nodeType ++ ": parsePattern must not contain backslashes (\\)"
  | .inconsistentPrimitiveType nodeType existing requested =>
      "nodeType " ++ nodeType ++ ": primitiveType " ++ requested ++
        " conflicts with earlier primitiveType " ++ existing
  | .unresolvedReference nodeType reference =>
      "nodeType " ++ nodeType ++ ": reference to " ++ reference ++ " cannot be resolved"
  | .expansionCycle path => "pattern expansion cycle: " ++ " -> ".intercalate path
  | .precedenceRedeclared parser precedence =>
      "parser " ++ parser ++ ": precedence " ++ precedence ++ " already declared"
  | .unknownSubparser nodeType subparser =>
      "nodeType " ++ nodeType ++ ": subParser " ++ subparser ++ " has no rules"
  | .tooManyNodeTypes limit =>
      "grammar defines more than " ++ decimal limit ++ " node types"
  | .invalidTokenPattern name => "nodeType " ++ name ++ ": invalid tokenizePattern"
  | .captureGroupCount nodeType found =>
      "nodeType " ++ nodeType ++ ": parsePattern has " ++ decimal found ++
        " capture groups, at most 1 allowed"
  | .malformedParsePattern nodeType offset reason =>
      "nodeType " ++ nodeType ++ ": malformed parsePattern at offset " ++ decimal offset ++ ": " ++
        reason

end RowGrammar

import RowGrammar.Engine
import RowGrammar.Text.Quoted

/-!
# Derivation errors

The reasons for which no grammar can be derived from an example.
-/

namespace RowGrammar

open RowGrammar.Text

inductive DeriveError where
  /-- A node type used both for leaves and for branches. -/
  | nodeTypeClash (nodeType : String)
  | emptyLeaf (nodeType : String)
  | emptyNode (nodeType : String)
  | leafNotInSource (nodeType text : String)
  /-- The inferred tokenizer leaves text without a token. -/
  | unrecognizedText (index : Nat) (text : String)
  /-- A wrong token that no order of the token patterns puts right. -/
  | tokenMismatch (index : Nat) (expected found : String)
  | tokenCountMismatch (expected found : Nat)
  /-- An order of the token patterns that was tried before. -/
  | tokenizerLoop
  | grammar (error : GrammarError)
  | tokenize (error : TokenizeError)
  | parse (error : ParseError)
  deriving DecidableEq, Repr

namespace DeriveError

def message : DeriveError → String
  | .nodeTypeClash nodeType =>
      "nodeType " ++ nodeType ++ ": used both as leaf and as internal node"
  | .emptyLeaf nodeType => "nodeType " ++ nodeType ++ ": leaf without text"
  | .emptyNode nodeType => "nodeType " ++ nodeType ++ ": node without children"
  | .leafNotInSource nodeType text =>
      "nodeType " ++ nodeType ++ ": leaf " ++ quoted text ++ " not found in the source text"
  | .unrecognizedText index text =>
      "token " ++ decimal index ++ ": unrecognized text " ++ quoted text
  | .tokenMismatch index expected found =>
      "token " ++ decimal index ++ ": expected " ++ expected ++ ", found " ++ found ++
        ", and the tokenizer cannot be reordered"
  | .tokenCountMismatch expected found =>
      "expected " ++ decimal expected ++ " tokens, found " ++ decimal found
  | .tokenizerLoop => "tokenizer reordering does not converge"
  | .grammar error => "derived grammar: " ++ error.message
  | .tokenize error => "derived tokenizer: " ++ error.message
  | .parse error => "derived parser: " ++ error.message

/-- The error of a derivation whose candidate grammar fails. -/
def ofRun : RunError → DeriveError
  | .grammar error => .grammar error
  | .tokenize error => .tokenize error
  | .parse error => .parse error

end DeriveError

end RowGrammar

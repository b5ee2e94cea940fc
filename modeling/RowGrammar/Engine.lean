import RowGrammar.Grammar.Load
import RowGrammar.Grammar.Precedence
import RowGrammar.Reduction.Reduce
import RowGrammar.SymbolPattern.Compile
import RowGrammar.Token.Scan
import RowGrammar.TokenPattern.Expand

/-!
# Engines

A grammar together with everything compiled from it.  Texts are tokenized and parsed in sessions:
a session keeps the nodes of all its runs in one table, so no two of them share a number.
-/

namespace RowGrammar

/-- A compiled grammar. -/
structure Engine where
  grammar : Grammar
  /-- The expanded token patterns in the order of the token rules. -/
  expanded : List (NodeTypeId × String)
  tokenizers : List Tokenizer
  /-- The compiled parse patterns, by rule. -/
  patterns : Array SymbolPattern

/-- What can go wrong when a text is parsed. -/
inductive RunError where
  | grammar (error : GrammarError)
  | tokenize (error : TokenizeError)
  | parse (error : ParseError)
  deriving DecidableEq, Repr

def RunError.message : RunError → String
  | .grammar error => "grammar error: " ++ error.message
  | .tokenize error => "tokenize error: " ++ error.message
  | .parse error => "parse error: " ++ error.message

structure TokenizeOptions where
  /-- The parser whose tokenizer is used; none for the main parser. -/
  parser : Option String := none
  /-- Whether unmatched text is an error. -/
  strict : Bool := false
  deriving DecidableEq, Repr

/-- The nodes of the runs of one session. -/
structure Session where
  nodes : NodeTable
  deriving DecidableEq, Repr

namespace Session

def start : Session := ⟨.empty⟩

/-- Adds a leaf for a piece unless its type is suppressed. -/
def addPiece (grammar : Grammar) (session : Session) (piece : Piece) : Option NodeId × Session :=
  if grammar.isSuppressed piece.nodeType then (none, session)
  else (some session.nodes.size, ⟨session.nodes.push ⟨piece.nodeType, .text piece.text⟩⟩)

/-- Turns pieces into tokens, of which the first gets the given index. -/
def addPieces (grammar : Grammar) : Nat → List Piece → Session → List Token × Session
  | _, [], session => ([], session)
  | index, piece :: pieces, session =>
      let (node, session) := session.addPiece grammar piece
      let (tokens, session) := addPieces grammar (index + 1) pieces session
      (⟨piece.nodeType, piece.text, index, node⟩ :: tokens, session)

end Session

namespace Engine

/-- Compiles a loaded grammar. -/
def ofGrammar (grammar : Grammar) : Except GrammarError Engine := do
  let expanded ← TokenPattern.expandAll grammar
  let tokenizers ← grammar.parsers.mapM (Tokenizer.compile grammar expanded)
  let patterns ← grammar.parserRules.mapM fun rule =>
    SymbolPattern.compile grammar.registry (grammar.registry.name rule.nodeType) rule.pattern
  return ⟨grammar, expanded, tokenizers, patterns⟩

/-- Loads and compiles the rows of a grammar. -/
def ofRows (rows : List Row) : Except GrammarError Engine := do
  let grammar ← Grammar.load rows
  ofGrammar grammar

/-- The expanded token pattern of a node type. -/
def expandedPattern? (engine : Engine) (name : String) : Option String := do
  let id ← engine.grammar.registry.id? name
  engine.expanded.lookup id

/-- Tokenizes a text in a session.  The nodes of the tokens before an error stay in the session. -/
def tokenizeIn (engine : Engine) (session : Session) (text : String) (options : TokenizeOptions) :
    Except TokenizeError (List Token) × Session :=
  let context : ScanContext := ⟨engine.grammar.registry, engine.tokenizers, options.strict⟩
  let scanned := context.scan (options.parser.getD engine.grammar.mainParser) text
  let (tokens, session) := Session.addPieces engine.grammar 0 scanned.pieces session
  match scanned.failure with
  | some error => (.error error, session)
  | none => (.ok tokens, session)

/-- Parses tokens in the session that they come from.  The nodes made before an error stay in the
session. -/
def parseIn (engine : Engine) (session : Session) (tokens : List Token) (options : ParseOptions) :
    Except ParseError ParseReport × Session :=
  let context : ReductionContext := {
    grammar := engine.grammar
    patterns := engine.patterns
    strict := options.strict
    maxNodes := options.maxNodes
    expected := options.expected.map Tree.subtrees }
  let parser := options.parser.getD engine.grammar.mainParser
  match context.parse parser (tokens.filterMap Token.symbol?) (.start session.nodes) with
  | .ok report state => (.ok report, ⟨state.nodes⟩)
  | .error error state => (.error error, ⟨state.nodes⟩)

/-- Tokenizes a text in a session of its own. -/
def tokenize (engine : Engine) (text : String) (options : TokenizeOptions) :
    Except TokenizeError (List Token) :=
  (engine.tokenizeIn .start text options).1

/-- Tokenizes and parses a text in a session of its own. -/
def parse (engine : Engine) (text : String) (options : ParseOptions) :
    Except RunError ParseReport :=
  match engine.tokenizeIn .start text ⟨options.parser, options.strict⟩ with
  | (.error error, _) => .error (.tokenize error)
  | (.ok tokens, session) =>
      match engine.parseIn session tokens options with
      | (.error error, _) => .error (.parse error)
      | (.ok report, _) => .ok report

/-- Moves a rule to a later precedence group, if it can move. -/
def relocate? (engine : Engine) (parser : String) (group : Nat) (rule : RuleId) : Option Engine :=
  (engine.grammar.relocate? parser group rule).map fun grammar => { engine with grammar }

/-- Moves the rule behind a divergence to a later precedence group, if it can move. -/
def resolve? (engine : Engine) (divergence : Divergence) : Option Engine :=
  engine.relocate? divergence.parser divergence.group divergence.rule

end Engine

end RowGrammar

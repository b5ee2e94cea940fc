import RowGrammar.Grammar.Basic
import RowGrammar.SymbolPattern.Lexeme
import RowGrammar.TokenPattern.Words

/-!
# Loading grammars

Rows are read one after the other: each registers its node type and adds a rule.  The parser rules
of a parser then fall into precedence groups: neighbours with the same key belong together, a key
may not come back after another one, and a rule without a key is a group of its own.  Last, every
token type is sorted by who refers to it.
-/

namespace RowGrammar

open RowGrammar.Text

/-- The tables with `change` applied to that of a parser, which is new if need be. -/
def updateTable (parser : String) (change : ParserTable → ParserTable) :
    List ParserTable → List ParserTable
  | [] => [change ⟨parser, [], []⟩]
  | table :: tables =>
      if table.name = parser then change table :: tables
      else table :: updateTable parser change tables

/-- The precedence groups of one parser after its next rule; none if the key of the rule was used
before and another one since. -/
def addRule (id : RuleId) (key : String) : List PrecedenceGroup → Option (List PrecedenceGroup)
  | [] => some [⟨key, [id]⟩]
  | [group] =>
      if key ≠ "" ∧ group.key = key then some [⟨key, group.rules ++ [id]⟩]
      else some [group, ⟨key, [id]⟩]
  | group :: groups =>
      if key ≠ "" ∧ group.key = key then none
      else (addRule id key groups).map (group :: ·)

namespace Grammar

def empty : Grammar := {
  rows := #[]
  registry := .empty
  mainParser := ""
  tokenRules := #[]
  parserRules := #[]
  parsers := []
  suppressed := []
  unused := [] }

/-- The grammar with the node type of a row, its group and its primitive type registered. -/
def register (grammar : Grammar) (row : Row) : Except GrammarError (NodeTypeId × Grammar) := do
  let (id, registry) ← grammar.registry.register row.nodeType
  let registry ← if row.group = "" then pure registry else registry.addToGroup row.group id
  let registry ←
    if row.primitiveType = "" then pure registry else registry.setPrimitive id row.primitiveType
  return (id, {
    grammar with
    registry
    mainParser := if grammar.mainParser = "" then row.parser else grammar.mainParser
    parsers := updateTable row.parser (fun table => table) grammar.parsers })

/-- The grammar after one more row, which is neither blank nor untrimmed. -/
def addRow (grammar : Grammar) (row : Row) : Except GrammarError Grammar := do
  let (id, grammar) ← grammar.register row
  let subparser := if row.subparser = "" then none else some row.subparser
  match row.isTokenRow, row.isParserRow with
  | true, true => .error (.bothPatterns row.nodeType)
  | false, false => .error (.missingPattern row.nodeType)
  | true, false =>
      return {
        grammar with
        rows := grammar.rows.push row
        tokenRules := grammar.tokenRules.push ⟨id, row.parser, row.tokenPattern, subparser⟩ }
  | false, true =>
      if row.parsePattern.toList.contains '\\' then
        .error (.backslashInParsePattern row.nodeType)
      else
        return {
          grammar with
          rows := grammar.rows.push row
          parserRules := grammar.parserRules.push
            ⟨id, row.parser, row.parsePattern, subparser, row.precedence, grammar.rows.size⟩ }

/-- Adds a parser rule to the precedence groups of its parser. -/
def groupRule (parsers : List ParserTable) (rule : ParserRule) (id : RuleId) :
    Except GrammarError (List ParserTable) :=
  let groups :=
    match parsers.find? (·.name == rule.parser) with
    | some table => table.groups
    | none => []
  match addRule id rule.precedence groups with
  | some groups => .ok (updateTable rule.parser (fun table => { table with groups }) parsers)
  | none => .error (.precedenceRedeclared rule.parser rule.precedence)

/-- The grammar with its parser rules in precedence groups. -/
def groupRules (grammar : Grammar) : Except GrammarError Grammar := do
  let parsers ← grammar.parserRules.toList.zipIdx.foldlM
    (fun parsers (rule, id) => groupRule parsers rule id) grammar.parsers
  return { grammar with parsers }

/-- Every sub-parser that a rule names with the node type of the rule, token rules first. -/
def delegations (grammar : Grammar) : List (NodeTypeId × String) :=
  grammar.tokenRules.toList.filterMap (fun rule => rule.subparser.map (rule.nodeType, ·)) ++
    grammar.parserRules.toList.filterMap (fun rule => rule.subparser.map (rule.nodeType, ·))

/-- Accepts the grammar if every sub-parser has rules. -/
def checkSubparsers (grammar : Grammar) : Except GrammarError Unit :=
  match grammar.delegations.find? fun (_, name) => (grammar.parser? name).isNone with
  | some (id, name) => .error (.unknownSubparser (grammar.registry.name id) name)
  | none => .ok ()

/-- The node types that the words of a token pattern stand for. -/
def wordTargets (registry : Registry) (pattern : String) : List NodeTypeId :=
  (TokenPattern.words pattern).flatMap fun word => (registry.resolve? word.text).getD []

/-- The node types that token patterns of other types refer to. -/
def fragmentTypes (grammar : Grammar) : List NodeTypeId :=
  grammar.tokenRules.toList.flatMap fun rule =>
    (wordTargets grammar.registry rule.pattern).filter (· != rule.nodeType)

/-- The node types that parse patterns refer to. -/
def parsedTypes (grammar : Grammar) : List NodeTypeId :=
  grammar.parserRules.toList.flatMap fun rule =>
    (SymbolPattern.referencedNames rule.pattern).flatMap fun name =>
      (grammar.registry.resolve? name).getD []

/-- What the tokens of a token type are for. -/
inductive TokenRole where
  /-- A parse pattern refers to them, or a sub-parser reads them. -/
  | significant
  /-- Only other token patterns refer to the type, so it has no tokens of its own. -/
  | fragment
  /-- Nothing refers to the type; its tokens still cover text. -/
  | unused
  deriving DecidableEq, Repr

/-- The role of a token rule, given the types that patterns refer to. -/
def roleOf (parsed fragments : List NodeTypeId) (rule : TokenRule) : TokenRole :=
  if parsed.contains rule.nodeType || rule.subparser.isSome then .significant
  else if fragments.contains rule.nodeType then .fragment
  else .unused

/-- The grammar with every token type sorted by its role.  Unused types are suppressed once there
are parser rules. -/
def classify (grammar : Grammar) : Grammar :=
  let parsed := grammar.parsedTypes
  let fragments := grammar.fragmentTypes
  let role := roleOf parsed fragments
  let rules := grammar.tokenRules.toList
  let unused := (rules.filter (role · == .unused)).map (·.nodeType)
  { grammar with
    parsers := rules.foldl
      (fun parsers rule =>
        if role rule = .fragment then parsers
        else updateTable rule.parser
          (fun table => { table with tokenTypes := table.tokenTypes ++ [rule.nodeType] }) parsers)
      grammar.parsers
    unused
    suppressed := if grammar.parserRules.isEmpty then [] else unused }

def load (rows : List Row) : Except GrammarError Grammar := do
  let rows := (rows.filter fun row => !row.isBlank).map Row.trimmed
  let grammar ← rows.foldlM addRow .empty
  let grammar ← grammar.groupRules
  grammar.checkSubparsers
  return grammar.classify

/-- What there is to say about a loaded grammar: its suppressed types. -/
def warnings (grammar : Grammar) : List String :=
  grammar.suppressed.map fun id =>
    "nodeType " ++ grammar.registry.name id ++ ": unused, tokens will be suppressed"

end Grammar

end RowGrammar

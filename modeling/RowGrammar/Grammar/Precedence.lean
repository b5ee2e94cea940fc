import RowGrammar.Grammar.Basic

/-!
# Changing the precedence of rules

A rule is moved to a later place by giving it a precedence group of its own right after the group
it was in; a rule that is alone in its group trades places with the next group.  The groups of the
parser are then numbered afresh, and the grammar can be written back as rows.
-/

namespace RowGrammar

open RowGrammar.Text

/-- The index of the group that holds a rule, the suggested one if that does. -/
def groupOf? (groups : List PrecedenceGroup) (suggested : Nat) (rule : RuleId) : Option Nat :=
  match groups[suggested]? with
  | some group =>
      if group.rules.contains rule then some suggested
      else groups.findIdx? (·.rules.contains rule)
  | none => groups.findIdx? (·.rules.contains rule)

/-- The groups with a rule of the group at `index` moved behind that group; none if it cannot move
any further. -/
def moveLater? (rule : RuleId) : Nat → List PrecedenceGroup → Option (List PrecedenceGroup)
  | _, [] => none
  | 0, group :: groups =>
      if 1 < group.rules.length then
        some ({ group with rules := group.rules.filter (· != rule) } :: ⟨"", [rule]⟩ :: groups)
      else
        match groups with
        | next :: groups => some (next :: group :: groups)
        | [] => none
  | index + 1, group :: groups => (moveLater? rule index groups).map (group :: ·)

/-- The groups with the keys `1`, `2` and so on. -/
def renumber (groups : List PrecedenceGroup) : List PrecedenceGroup :=
  groups.zipIdx.map fun (group, index) => { group with key := decimal (index + 1) }

namespace Grammar

/-- The grammar with a key given to a rule and to its row. -/
def setPrecedence (grammar : Grammar) (key : String) (id : RuleId) : Grammar :=
  match grammar.parserRules[id]? with
  | some rule =>
      { grammar with
        parserRules := grammar.parserRules.modify id fun rule => { rule with precedence := key }
        rows := grammar.rows.modify rule.row fun row => { row with precedence := key } }
  | none => grammar

/-- The grammar with the keys of some groups given to all of their rules. -/
def setPrecedences (grammar : Grammar) (groups : List PrecedenceGroup) : Grammar :=
  groups.foldl (fun grammar group => group.rules.foldl (setPrecedence · group.key) grammar) grammar

/-- Moves a rule of a parser to a later precedence group.  None if the parser has no such rule or
the rule is alone in the last group.  The rule is looked for in `group` first. -/
def relocate? (grammar : Grammar) (parser : String) (group : Nat) (rule : RuleId) :
    Option Grammar := do
  let table ← grammar.parser? parser
  let index ← groupOf? table.groups group rule
  let groups := renumber (← moveLater? rule index table.groups)
  return {
    grammar.setPrecedences groups with
    parsers := grammar.parsers.map fun other =>
      if other.name = parser then { other with groups } else other }

/-- The signature of one parser: its name and the names in each of its groups. -/
def tableSignature (grammar : Grammar) (table : ParserTable) : String :=
  table.name ++ ":" ++
    String.join (table.groups.map fun group =>
      "[" ++ " ".intercalate (group.rules.map grammar.ruleName) ++ "]") ++ ";"

/-- A text that tells precedence configurations apart. -/
def signature (grammar : Grammar) : String :=
  String.join (grammar.parsers.map grammar.tableSignature)

/-- The rules of a table in the order of its groups. -/
def orderedRules (grammar : Grammar) (table : ParserTable) : List ParserRule :=
  (table.groups.flatMap (·.rules)).filterMap fun id => grammar.parserRules[id]?

/-- The places that the parser rules of a table take among the rows. -/
def slots (grammar : Grammar) (table : ParserTable) : List Nat :=
  (grammar.parserRules.toList.filter (·.parser == table.name)).map (·.row)

/-- The rows of the grammar.  The parser rules of each parser take the places they had, in the
order of their groups now. -/
def toRows (grammar : Grammar) : List Row :=
  (grammar.parsers.foldl
    (fun (rows : Array Row) table =>
      ((grammar.slots table).zip (grammar.orderedRules table)).foldl
        (fun rows (slot, rule) => rows.setIfInBounds slot (grammar.rows[rule.row]?.getD {})) rows)
    grammar.rows).toList

end Grammar

end RowGrammar

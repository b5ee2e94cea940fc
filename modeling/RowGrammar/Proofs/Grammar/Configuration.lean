import RowGrammar.Grammar.Precedence
import RowGrammar.Proofs.Grammar.Arrangement

/-!
# Precedence configurations

A precedence configuration is what a grammar tells about the order of its rules: for every parser
the groups of its rules, in order.  It is what the signature of the grammar shows.
-/

namespace RowGrammar.Grammar

/-- The parsers in order, each with the rules of its groups. -/
abbrev Configuration := List (String × List (List RuleId))

def configuration (grammar : Grammar) : Configuration :=
  grammar.parsers.map fun table => (table.name, table.groups.map (·.rules))

def groupText (names : RuleId → String) (rules : List RuleId) : String :=
  "[" ++ " ".intercalate (rules.map names) ++ "]"

def Configuration.text (names : RuleId → String) (configuration : Configuration) : String :=
  String.join (configuration.map fun entry =>
    entry.1 ++ ":" ++ String.join (entry.2.map (groupText names)) ++ ";")

theorem signature_eq_text (grammar : Grammar) :
    grammar.signature = grammar.configuration.text grammar.ruleName := by
  rw [signature, Configuration.text, configuration, List.map_map]
  congr 1
  apply List.map_congr_left
  intro table _
  simp only [tableSignature, Function.comp_apply, List.map_map]
  rfl

theorem find?_configuration (grammar : Grammar) (parser : String) :
    (grammar.configuration.find? (·.1 == parser)).map (·.2) =
      (grammar.parser? parser).map (·.groups.map (·.rules)) := by
  rw [configuration, List.find?_map, Option.map_map]
  rfl

theorem mem_configuration {rows : List Row} {groups : String → List PrecedenceGroup}
    {parser : String} {ordering : List (List RuleId)} :
    (parser, ordering) ∈ (arranged rows groups).configuration ↔
      parser ∈ parserNames rows ∧ ordering = (groups parser).map (·.rules) := by
  simp only [configuration, parsers_arranged, List.map_map, List.mem_map, Function.comp_apply,
    Prod.mk.injEq]
  constructor
  · intro listed
    obtain ⟨_, known, rfl, rfl⟩ := listed
    exact ⟨known, rfl⟩
  · intro listed
    obtain ⟨known, same⟩ := listed
    exact ⟨parser, known, rfl, same.symm⟩

end RowGrammar.Grammar

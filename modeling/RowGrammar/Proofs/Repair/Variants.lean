import RowGrammar.Proofs.Grammar.Rearrangement
import RowGrammar.Proofs.Grammar.Signature
import RowGrammar.Proofs.Relabeling
import RowGrammar.Proofs.Repair.Retrying

/-!
# Variants of an engine

The engines that a repair tries differ in nothing but the keys and groups of their rules.  Keys only
matter when the grammar is written back: two of these engines that have the same precedence
configuration parse every text alike, and the repair goes on from them alike.
-/

namespace RowGrammar.Engine

open Grammar

/-- An engine that is another one with other keys and groups. -/
structure Variant (base engine : Engine) : Prop where
  same : engine = { base with grammar := engine.grammar }
  exists_rows : ∃ rows groups, Arranges rows groups ∧ engine.grammar = arranged rows groups ∧
    rows.map Row.unkeyed = base.grammar.rows.toList.map Row.unkeyed
  ordered : engine.grammar.Ordered

theorem Compiled.ordered {engine : Engine} (compiled : engine.Compiled) :
    engine.grammar.Ordered := by
  induction compiled with
  | @ofRows rows engine made =>
      obtain ⟨grammar, loaded, compiles⟩ := bind_eq_ok_iff.mp made
      rw [(ofGrammar_eq_ok_iff.mp compiles).1]
      exact ordered_of_load loaded
  | @relocate engine moved parser group rule compiled relocated induction =>
      obtain ⟨rows, groups, arranges, same, _⟩ := compiled.exists_arranged
      obtain ⟨grammar, moves, rfl⟩ := Option.map_eq_some_iff.mp relocated
      rw [same] at induction moves
      exact induction.relocate arranges moves

theorem Compiled.variant {engine : Engine} (compiled : engine.Compiled) :
    engine.Variant engine := by
  obtain ⟨rows, groups, arranges, same, _⟩ := compiled.exists_arranged
  refine ⟨rfl, ⟨rows, groups, arranges, same, ?_⟩, compiled.ordered⟩
  rw [same]
  rfl

namespace Variant

variable {base engine other : Engine}

theorem relocate (variant : base.Variant engine) {parser : String} {group : Nat} {rule : RuleId}
    {moved : Engine} (relocated : engine.relocate? parser group rule = some moved) :
    base.Variant moved := by
  obtain ⟨same, ⟨rows, groups, arranges, grammar, unkeyed⟩, ordered⟩ := variant
  obtain ⟨moved, moves, rfl⟩ := Option.map_eq_some_iff.mp relocated
  rw [grammar] at ordered moves
  obtain ⟨others, regrouped, arranges', grammar', unkeyed'⟩ := relocate?_arranged arranges moves
  refine ⟨?_, ⟨others, regrouped, arranges', grammar', unkeyed'.trans unkeyed⟩,
    ordered.relocate arranges moves⟩
  rw [same]

/-- The repair only tries variants of the engine it starts with. -/
theorem retry (variant : base.Variant engine) (text : String) (expected : Tree)
    (maxNodes : Option Nat) : base.Variant (engine.retry text expected maxNodes) :=
  retry_induction variant.relocate variant

theorem configuration_mem (variant : base.Variant engine) :
    engine.grammar.configuration ∈ engine.grammar.configurations := by
  obtain ⟨_, ⟨rows, groups, _, grammar, _⟩, ordered⟩ := variant
  rw [grammar] at ordered ⊢
  exact ordered.mem_configurations

variable (variant : base.Variant engine) (variant' : base.Variant other)

include variant variant'

theorem exists_arranged : ∃ rows groups others regrouped,
    Arranges rows groups ∧ engine.grammar = arranged rows groups ∧
      Arranges others regrouped ∧ other.grammar = arranged others regrouped ∧
      others.map Row.unkeyed = rows.map Row.unkeyed := by
  obtain ⟨rows, groups, arranges, grammar, unkeyed⟩ := variant.exists_rows
  obtain ⟨others, regrouped, arranges', grammar', unkeyed'⟩ := variant'.exists_rows
  exact ⟨rows, groups, others, regrouped, arranges, grammar, arranges', grammar',
    unkeyed'.trans unkeyed.symm⟩

theorem patterns_eq : other.patterns = engine.patterns := by
  rw [variant.same, variant'.same]

theorem tokenizers_eq : other.tokenizers = engine.tokenizers := by
  rw [variant.same, variant'.same]

theorem signature_eq_iff : other.grammar.signature = engine.grammar.signature ↔
    other.grammar.configuration = engine.grammar.configuration := by
  obtain ⟨rows, groups, others, regrouped, arranges, grammar, arranges', grammar', same⟩ :=
    variant.exists_arranged variant'
  rw [grammar, grammar']
  exact arranges.signature_eq_iff arranges' same

theorem configurations_eq : other.grammar.configurations = engine.grammar.configurations := by
  obtain ⟨rows, groups, others, regrouped, _, grammar, _, grammar', same⟩ :=
    variant.exists_arranged variant'
  rw [grammar, grammar']
  exact configurations_of_unkeyed same groups regrouped

variable (agree : other.grammar.configuration = engine.grammar.configuration)

include agree

theorem sameRules (options : ParseOptions) : ReductionContext.SameRules id id
    (engine.reduction options) (other.reduction options) := by
  obtain ⟨rows, groups, others, regrouped, _, grammar, _, grammar', same⟩ :=
    variant.exists_arranged variant'
  have context : (engine.reduction options).grammar = arranged rows groups := grammar
  have context' : (other.reduction options).grammar = arranged others regrouped := grammar'
  constructor
  case injective => exact Function.injective_id
  case fixed => rfl
  case patterns => exact ReductionContext.samePattern_of_eq (variant.patterns_eq variant')
  case groups =>
    intro parser
    have tables := find?_configuration other.grammar parser
    rw [agree, find?_configuration] at tables
    simp only [List.map_id]
    exact tables.symm
  all_goals rw [context, context']
  case names =>
    intro id
    change (ungrouped others).registry.name id = (ungrouped rows).registry.name id
    rw [registry_of_unkeyed same]
  case parserRules =>
    intro id
    have related := parserRules_related_of_unkeyed same.symm id
    change Option.Rel _ (ungrouped rows).parserRules[id]? (ungrouped others).parserRules[id]?
    generalize (ungrouped others).parserRules[id]? = found' at related ⊢
    generalize (ungrouped rows).parserRules[id]? = found at related ⊢
    cases related with
    | none => exact .none
    | some equal =>
        exact .some ⟨(congrArg ParserRule.nodeType equal).symm,
          (congrArg ParserRule.subparser equal).symm⟩
  case ruleCount =>
    have lengths := congrArg List.length (parserRules_of_unkeyed same)
    rwa [List.length_map, List.length_map] at lengths
  case parserCount =>
    rw [parsers_arranged, parsers_arranged, List.length_map, List.length_map,
      parserNames_of_unkeyed same]

theorem relabels : engine.Relabels id id other := by
  obtain ⟨rows, groups, others, regrouped, _, grammar, _, grammar', same⟩ :=
    variant.exists_arranged variant'
  refine ⟨variant.sameRules variant' agree, ?_, ?_, variant.tokenizers_eq variant',
    fun _ _ _ _ => rfl⟩
  · rw [grammar, grammar', arranged_of_unkeyed same]
    rfl
  · rw [grammar, grammar', arranged_of_unkeyed same]
    rfl

/-- With the same configuration, texts are parsed with the same result. -/
theorem parse_eq (text : String) (options : ParseOptions) :
    other.parse text options = engine.parse text options := by
  rw [(variant.relabels variant' agree).parse_eq]
  have kept (report : ParseReport) : report.renumber id = report := by
    obtain ⟨root, tree, divergence, steps, halted, count⟩ := report
    cases divergence with
    | none => rfl
    | some divergence => rfl
  cases engine.parse text options with
  | error error => rfl
  | ok report => exact congrArg Except.ok (kept report)

theorem retry_congr (text : String) (expected : Tree) (maxNodes : Option Nat) :
    (other.retry text expected maxNodes).grammar.configuration =
      (engine.retry text expected maxNodes).grammar.configuration := by
  rw [Engine.retry, Engine.retry, variant.parse_eq variant' agree]
  split
  · rename_i report _
    cases report.divergence with
    | none => exact agree
    | some divergence =>
        have moved := relocate?_congr agree divergence.parser divergence.group divergence.rule
        rw [Option.bind_some, Option.bind_some, resolve?, resolve?, relocate?, relocate?]
        generalize other.grammar.relocate? _ _ _ = result' at moved ⊢
        generalize engine.grammar.relocate? _ _ _ = result at moved ⊢
        cases result with
        | none =>
            rw [Option.map_none, Option.map_eq_none_iff] at moved
            rw [moved]
            exact agree
        | some grammar =>
            obtain ⟨grammar', rfl, same⟩ := Option.map_eq_some_iff.mp moved
            exact same
  · exact agree

end Variant

end RowGrammar.Engine

import Mathlib.Data.List.Sort
import RowGrammar.Proofs.Grammar.Renumbering
import RowGrammar.Proofs.Relabeling
import RowGrammar.Proofs.SymbolPattern.Renaming

/-!
# Reloaded engines

The grammar of a compiled engine can be written back, loaded and compiled again.  The new engine has
the same tokenizers, and it reduces in the same way with other numbers.
-/

namespace RowGrammar

open Grammar SymbolPattern

namespace Engine

variable {rows others : List Row} (reorders : Reorders rows others) (readable : Readable rows)

include reorders readable

/-- Reordered rows compile to the same tokenizers. -/
theorem sameTokens (groups regrouped : String → List PrecedenceGroup) :
    SameTokens (arranged rows groups) (arranged others regrouped) := by
  refine ⟨reorders.tokenRules_eq readable, ?_, ?_⟩
  · intro name absent
    have related := reorders.sameNames readable name
    change (ungrouped rows).registry.resolve? name = none at absent
    rw [absent] at related
    cases found : (ungrouped others).registry.resolve? name with
    | none => exact found
    | some targets =>
        rw [found] at related
        cases related
  · intro name targets found tokens
    have related := reorders.sameNames readable name
    change (ungrouped rows).registry.resolve? name = some targets at found
    rw [found] at related
    cases found' : (ungrouped others).registry.resolve? name with
    | none =>
        rw [found'] at related
        cases related
    | some targets' =>
        rw [found'] at related
        cases related with
        | some same =>
            have fixed : targets.map (renumbered rows others) = targets := by
              conv_rhs => rw [← List.map_id targets]
              apply List.map_congr_left
              intro target member
              obtain ⟨rule, known⟩ := Option.isSome_iff_exists.mp (tokens target member)
              have token : rule.nodeType = target := by simpa using Array.find?_some known
              have owned := reorders.renumbered_of_tokenRule readable
                (Array.mem_toList_iff.mpr (Array.mem_of_find?_eq_some known))
              rwa [token] at owned
            rw [SameTypes, fixed] at same
            change (ungrouped others).registry.resolve? name = _
            rw [found', (resolve?_sorted found').eq_of_mem_iff (resolve?_sorted found) same]

omit reorders readable in
/-- The pattern of a rule is compiled from its row. -/
theorem patterns_related {list : List Row} {groups : String → List PrecedenceGroup}
    {engine : Engine} (compiled : ofGrammar (arranged list groups) = .ok engine) (id : RuleId) :
    Option.Rel (fun row pattern => SymbolPattern.compile (ungrouped list).registry row.nodeType
      row.parsePattern = .ok pattern) (rowOf list id) engine.patterns[id]? := by
  obtain ⟨_, _, _, patterns⟩ := ofGrammar_eq_ok_iff.mp compiled
  have related := getElem?_related patterns id
  rw [Array.getElem?_toList, Array.getElem?_toList] at related
  change Option.Rel _ (ungrouped list).parserRules[id]? _ at related
  cases found : rowOf list id with
  | none =>
      rw [rowOf_eq_none_iff.mp found] at related
      generalize engine.patterns[id]? = result at related
      cases related
      exact .none
  | some row =>
      obtain ⟨place, here, _, known⟩ := rowOf_eq_some_iff.mp found
      rw [known] at related
      generalize engine.patterns[id]? = result at related
      cases related with
      | some made =>
          change SymbolPattern.compile (ungrouped list).registry
            ((ungrouped list).registry.name (place + 1)) row.parsePattern = _ at made
          rw [name_of_row here] at made
          exact .some made

/-- Reordered rows compile, and to the same tokenizers. -/
theorem ofGrammar_reordered {groups : String → List PrecedenceGroup}
    (regrouped : String → List PrecedenceGroup) {engine : Engine}
    (compiled : ofGrammar (arranged rows groups) = .ok engine) :
    ∃ other, ofGrammar (arranged others regrouped) = .ok other ∧
      other.tokenizers = engine.tokenizers := by
  have tokens := sameTokens reorders readable groups regrouped
  have agree := reorders.sameNames readable
  obtain ⟨_, expands, tokenizers, _⟩ := ofGrammar_eq_ok_iff.mp compiled
  have each (rule : ParserRule) (member : rule ∈ (ungrouped others).parserRules.toList) :
      ∃ pattern, SymbolPattern.compile (ungrouped others).registry
        ((ungrouped others).registry.name rule.nodeType) rule.pattern = .ok pattern := by
    obtain ⟨row, here, production, made⟩ := exists_row member
    obtain ⟨id, found⟩ := exists_rowOf_of_mem
      (reorders.perm.mem_iff.mp (List.mem_of_getElem? here)) production
    have related := patterns_related compiled id
    rw [found] at related
    generalize engine.patterns[id]? = result at related
    cases related with
    | @some _ pattern compiles =>
        refine ⟨pattern.rename (renumbered rows others), ?_⟩
        rw [made, name_of_row here]
        exact compile_renamed agree compiles
  obtain ⟨patterns, compiles⟩ := exists_forall₂ each
  refine ⟨⟨arranged others regrouped, engine.expanded, engine.tokenizers, patterns.toArray⟩, ?_,
    rfl⟩
  refine ofGrammar_eq_ok_iff.mpr ⟨rfl, tokens.expandAll_eq expands, ?_, compiles⟩
  rw [parsers_arranged, List.forall₂_map_left_iff] at tokenizers ⊢
  rw [parserNames_congr reorders.parsers_eq]
  apply tokenizers.imp
  intro name tokenizer compiles
  refine tokens.compile_eq ?_ ?_ compiles
  · rfl
  · exact reorders.tokenTypesOf_eq readable name

/-- The rule of a row is the same under its other number. -/
theorem parserRules_related (id : RuleId) :
    Option.Rel (ReductionContext.SameRule (renumbered rows others))
      (ungrouped rows).parserRules[id]?
      (ungrouped others).parserRules[renumberedRule rows others id]? := by
  have rowed := reorders.rowOf_renumberedRule readable id
  cases found : rowOf rows id with
  | none =>
      rw [rowOf_eq_none_iff.mp found, rowOf_eq_none_iff.mp (rowed.trans found)]
      exact .none
  | some row =>
      obtain ⟨place, here, _, known⟩ := rowOf_eq_some_iff.mp found
      obtain ⟨place', here', _, known'⟩ := rowOf_eq_some_iff.mp (rowed.trans found)
      rw [known, known']
      exact .some ⟨(reorders.renumbered_eq readable here here').symm, rfl⟩

/-- The pattern of a row matches the same under the other numbers. -/
theorem patterns_renamed {groups regrouped : String → List PrecedenceGroup}
    {engine other : Engine} (compiled : ofGrammar (arranged rows groups) = .ok engine)
    (compiled' : ofGrammar (arranged others regrouped) = .ok other) (id : RuleId) :
    Option.Rel (ReductionContext.SamePattern (renumbered rows others)) engine.patterns[id]?
      other.patterns[renumberedRule rows others id]? := by
  have related := patterns_related compiled id
  have related' := patterns_related compiled' (renumberedRule rows others id)
  rw [reorders.rowOf_renumberedRule readable id] at related'
  generalize rowOf rows id = found at related related'
  generalize engine.patterns[id]? = pattern at related ⊢
  generalize other.patterns[renumberedRule rows others id]? = pattern' at related' ⊢
  cases related with
  | none =>
      cases related'
      exact .none
  | @some row pattern compiles =>
      cases related' with
      | @some _ pattern' compiles' =>
          have renamed := compile_renamed (reorders.sameNames readable) compiles
          rw [compiles', Except.ok.injEq] at renamed
          rw [renamed]
          exact .some fun input start absorb => SymbolPattern.matchAt_rename
            (reorders.renumbered_injective readable) rfl pattern input start absorb

/-- A parser has the rules it had, in the same groups. -/
theorem groups_renumbered {groups regrouped : String → List PrecedenceGroup}
    (same : ∀ parser ∈ parserNames rows,
      List.Forall₂ (SameKey (SameRow rows others)) (groups parser) (regrouped parser))
    (parser : String) :
    ((arranged others regrouped).parser? parser).map (·.groups.map (·.rules)) =
      ((arranged rows groups).parser? parser).map
        (·.groups.map (·.rules.map (renumberedRule rows others))) := by
  have names := parserNames_congr reorders.parsers_eq
  by_cases known : parser ∈ parserNames rows
  · have known' : parser ∈ parserNames others := by rwa [names]
    rw [parser?_arranged.mpr ⟨known, rfl⟩, parser?_arranged.mpr ⟨known', rfl⟩]
    exact congrArg some (reorders.rules_renumbered readable (same parser known))
  · have absent {list : List Row} (groups : String → List PrecedenceGroup)
        (unknown : parser ∉ parserNames list) : (arranged list groups).parser? parser = none := by
      apply Option.eq_none_iff_forall_ne_some.mpr
      intro table found
      exact unknown (parser?_arranged.mp found).1
    rw [absent groups known, absent regrouped (by rwa [names])]
    rfl

/-- The rules of reordered rows do what they did. -/
theorem sameRules {groups regrouped : String → List PrecedenceGroup}
    (same : ∀ parser ∈ parserNames rows,
      List.Forall₂ (SameKey (SameRow rows others)) (groups parser) (regrouped parser))
    {engine other : Engine} (compiled : ofGrammar (arranged rows groups) = .ok engine)
    (compiled' : ofGrammar (arranged others regrouped) = .ok other) (options : ParseOptions) :
    ReductionContext.SameRules (renumbered rows others) (renumberedRule rows others)
      (engine.reduction options) (other.reduction options) := by
  have grammar : (engine.reduction options).grammar = arranged rows groups :=
    (ofGrammar_eq_ok_iff.mp compiled).1
  have grammar' : (other.reduction options).grammar = arranged others regrouped :=
    (ofGrammar_eq_ok_iff.mp compiled').1
  constructor
  case injective => exact reorders.renumbered_injective readable
  case fixed => rfl
  case patterns => exact patterns_renamed reorders readable compiled compiled'
  all_goals rw [grammar, grammar']
  case names => exact reorders.name_renumbered readable
  case parserRules => exact parserRules_related reorders readable
  case groups => exact groups_renumbered reorders readable same
  case ruleCount => exact reorders.parserRules_size_eq
  case parserCount =>
    rw [parsers_arranged, parsers_arranged, List.length_map, List.length_map,
      parserNames_congr reorders.parsers_eq]

/-- Tokenizers have token types only, and these keep their numbers. -/
theorem renumbered_alternative {groups : String → List PrecedenceGroup} {engine : Engine}
    (compiled : ofGrammar (arranged rows groups) = .ok engine) :
    ∀ tokenizer ∈ engine.tokenizers, ∀ alternative ∈ tokenizer.alternatives,
      renumbered rows others alternative.nodeType = alternative.nodeType := by
  intro tokenizer member alternative listed
  obtain ⟨_, _, tokenizers, _⟩ := ofGrammar_eq_ok_iff.mp compiled
  obtain ⟨table, inside, compiles⟩ := exists_of_forall₂ tokenizers.flip member
  rw [parsers_arranged] at inside
  obtain ⟨name, _, rfl⟩ := List.mem_map.mp inside
  obtain ⟨typed, _⟩ := Tokenizer.mem_alternatives compiles listed
  obtain ⟨rule, known, same⟩ := List.mem_map.mp typed
  rw [← same]
  exact reorders.renumbered_of_tokenRule readable (List.mem_filter.mp known).1

omit reorders readable

/-- A compiled engine is found again when its grammar is written back, loaded and compiled. -/
theorem Compiled.exists_reloaded {engine : Engine} (compiled : engine.Compiled) :
    ∃ other types rules, Engine.ofRows engine.grammar.toRows = .ok other ∧
      engine.Relabels types rules other ∧ engine.grammar.Restores other.grammar ∧
      Function.Bijective rules ∧
      ∀ id, other.grammar.ruleName (rules id) = engine.grammar.ruleName id := by
  obtain ⟨rows, groups, arranges, same, compiles⟩ := compiled.exists_arranged
  rw [same] at compiles
  obtain ⟨others, regrouped, written, loaded, reorders, kept, restores⟩ := arranges.reload
  have readable := arranges.readable
  obtain ⟨other, compiles', tokenizers⟩ := ofGrammar_reordered reorders readable regrouped compiles
  have grammar : other.grammar = arranged others regrouped := (ofGrammar_eq_ok_iff.mp compiles').1
  refine ⟨other, renumbered rows others, renumberedRule rows others, ?_, ?_, ?_,
    reorders.renumberedRule_bijective readable, ?_⟩
  · rw [same, written, Engine.ofRows, bind_eq_ok_iff]
    exact ⟨_, loaded, compiles'⟩
  · refine ⟨sameRules reorders readable kept compiles compiles', ?_, ?_, tokenizers,
      renumbered_alternative reorders readable compiles⟩
    · rw [grammar, same]
      exact restores.mainParser
    · rw [grammar, same]
      exact restores.suppressed
  · rw [grammar, same]
    exact restores
  · rw [grammar, same]
    exact reorders.ruleName_renumberedRule readable groups regrouped

/-- Moves rules one after the other; moves that are not possible change nothing. -/
def relocateAll (engine : Engine) : List (String × Nat × RuleId) → Engine
  | [] => engine
  | (parser, group, rule) :: moves =>
      ((engine.relocate? parser group rule).getD engine).relocateAll moves

theorem relocateAll_grammar (engine : Engine) (moves : List (String × Nat × RuleId)) :
    (engine.relocateAll moves).grammar = engine.grammar.relocateAll moves := by
  induction moves generalizing engine with
  | nil => rfl
  | cons move moves induction =>
      obtain ⟨parser, group, rule⟩ := move
      rw [relocateAll, induction, Grammar.relocateAll, relocate?]
      cases engine.grammar.relocate? parser group rule with
      | none => rfl
      | some moved => rfl

theorem Compiled.relocateAll {engine : Engine} (compiled : engine.Compiled)
    (moves : List (String × Nat × RuleId)) : (engine.relocateAll moves).Compiled := by
  induction moves generalizing engine with
  | nil => exact compiled
  | cons move moves induction =>
      obtain ⟨parser, group, rule⟩ := move
      rw [Engine.relocateAll]
      cases result : engine.relocate? parser group rule with
      | none => exact induction compiled
      | some moved => exact induction (compiled.relocate result)

/-- However rules of a loaded grammar are moved, writing it back and loading it again restores it;
and if it compiles, the engine made of what was written finds the same tokens in every text and
parses every text with the same result, in which rules go by other numbers. -/
theorem reload_relocated {rows : List Row} {grammar : Grammar}
    (loaded : Grammar.load rows = .ok grammar) (moves : List (String × Nat × RuleId)) :
    grammar.toRows = cleaned rows ∧
    (∃ reloaded, Grammar.load (grammar.relocateAll moves).toRows = .ok reloaded ∧
      (grammar.relocateAll moves).Restores reloaded) ∧
    ∀ engine, ofRows rows = .ok engine →
      (engine.relocateAll moves).grammar = grammar.relocateAll moves ∧
      ∃ other, ofRows (grammar.relocateAll moves).toRows = .ok other ∧
        (∀ session text options,
          other.tokenizeIn session text options =
            (engine.relocateAll moves).tokenizeIn session text options ∧
          ∀ tokens after, other.tokenizeIn session text options = (.ok tokens, after) →
            ∀ token ∈ tokens, other.grammar.registry.name token.nodeType =
              (engine.relocateAll moves).grammar.registry.name token.nodeType) ∧
        ∃ rules, Function.Bijective rules ∧
          (∀ id, other.grammar.ruleName (rules id) =
            (engine.relocateAll moves).grammar.ruleName id) ∧
          ∀ text options, other.parse text options =
            ((engine.relocateAll moves).parse text options).map (.renumber rules) := by
  refine ⟨toRows_of_load loaded, ?_, ?_⟩
  · obtain ⟨groups, arranges, rfl⟩ := load_arranges loaded
    obtain ⟨others, regrouped, arranges, same⟩ := relocateAll_arranged arranges moves
    obtain ⟨_, _, written, reloaded, _, _, restores⟩ := arranges.reload
    rw [same, written]
    exact ⟨_, reloaded, restores⟩
  · intro engine compiled
    have same : engine.grammar = grammar := by
      rw [ofRows, loaded] at compiled
      exact (ofGrammar_eq_ok_iff.mp compiled).1
    have moved : (engine.relocateAll moves).grammar = grammar.relocateAll moves := by
      rw [relocateAll_grammar, same]
    obtain ⟨other, types, rules, reloaded, relabels, _, bijective, names⟩ :=
      ((Compiled.ofRows compiled).relocateAll moves).exists_reloaded
    rw [moved] at reloaded
    refine ⟨moved, other, reloaded, ?_, rules, bijective, names, relabels.parse_eq⟩
    intro session text options
    refine ⟨relabels.tokenizeIn_eq session text options, ?_⟩
    intro tokens after tokenized token member
    rw [relabels.tokenizeIn_eq] at tokenized
    have named := (relabels.same {}).names token.nodeType
    rwa [relabels.nodeType_eq tokenized token member] at named

/-- Rows of two parsers in turn.  The first rule of `main` can move behind the second one. -/
def interleavedRows : List Row := [
  .token "main" "Num" "[0-9]+",
  .production "main" "Value" "Num" "1",
  .production "inner" "Name" "Word" "1",
  .token "main" "Word" "[a-z]+",
  .production "main" "Pair" "Num Word" "2"]

def interleavedEngine : Engine :=
  ((ofRows interleavedRows).toOption).get (by decide +kernel)

theorem ofRows_interleavedRows : ofRows interleavedRows = .ok interleavedEngine :=
  eq_ok_get _

theorem load_interleavedRows : Grammar.load interleavedRows = .ok interleavedEngine.grammar := by
  obtain ⟨grammar, loaded, compiled⟩ := bind_eq_ok_iff.mp ofRows_interleavedRows
  rw [loaded, (ofGrammar_eq_ok_iff.mp compiled).1]

/-- The pair is only found once the first rule has moved, and it still is after reloading. -/
theorem reload_interleaved :
    (interleavedEngine.grammar.relocateAll [("main", 0, 0)]).toRows.map (·.nodeType) =
        ["Num", "Pair", "Name", "Word", "Value"] ∧
      ∃ other, ofRows (interleavedEngine.grammar.relocateAll [("main", 0, 0)]).toRows = .ok other ∧
        (other.parse "7a" {}).toOption.map (·.tree) =
          some (.branch "Pair" [.leaf "Num" "7", .leaf "Word" "a"]) := by
  refine ⟨by decide +kernel, ?_⟩
  obtain ⟨_, other, reloaded, _, rules, _, _, parses⟩ :=
    (reload_relocated load_interleavedRows [("main", 0, 0)]).2.2 _ ofRows_interleavedRows
  have pair : ((interleavedEngine.relocateAll [("main", 0, 0)]).parse "7a" {}).toOption.map
      (·.tree) = some (.branch "Pair" [.leaf "Num" "7", .leaf "Word" "a"]) := by decide +kernel
  refine ⟨other, reloaded, ?_⟩
  rw [parses, ← pair]
  cases (interleavedEngine.relocateAll [("main", 0, 0)]).parse "7a" {} with
  | error error => rfl
  | ok report => rfl

end Engine

end RowGrammar

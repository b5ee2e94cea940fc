import RowGrammar.Engine
import RowGrammar.Proofs.Grammar.Relocation
import RowGrammar.Proofs.TokenPattern.Substitution

/-!
# Compiled engines

An engine is compiled from rows, and its rules may be moved afterwards.  Moving rules recompiles
nothing, and nothing has to be: compiling the grammar as it is now would give the same engine.
-/

namespace RowGrammar

/-- The engines that rows are compiled to, with any rules moved since. -/
inductive Engine.Compiled : Engine → Prop where
  | ofRows {rows : List Row} {engine : Engine} :
      Engine.ofRows rows = .ok engine → Compiled engine
  | relocate {engine moved : Engine} {parser : String} {group : Nat} {rule : RuleId} :
      Compiled engine → engine.relocate? parser group rule = some moved → Compiled moved

namespace Engine

open Grammar

/-- What it takes for two grammars to compile to the same tokenizers: they have the same token
rules, and the words of these rules stand for the same. -/
structure SameTokens (grammar other : Grammar) : Prop where
  rules : other.tokenRules = grammar.tokenRules
  unresolved : ∀ name, grammar.registry.resolve? name = none → other.registry.resolve? name = none
  /-- Words that stand for anything but token types are errors. -/
  resolved : ∀ name targets, grammar.registry.resolve? name = some targets →
    (∀ target ∈ targets, (grammar.tokenRule? target).isSome) →
    other.registry.resolve? name = some targets

namespace SameTokens

variable {grammar other : Grammar} (same : SameTokens grammar other)

include same

theorem tokenRule?_eq (id : NodeTypeId) : other.tokenRule? id = grammar.tokenRule? id := by
  rw [Grammar.tokenRule?, Grammar.tokenRule?, same.rules]

/-- The words of a token rule that has a substitution stand for the same. -/
theorem resolve?_eq {id : NodeTypeId} {rule : TokenRule}
    (found : grammar.tokenRule? id = some rule)
    (known : ∀ target, TokenPattern.References grammar id target →
      (grammar.tokenRule? target).isSome)
    {chars : List Char} (listed : .word chars ∈ TokenPattern.segments rule.pattern.toList) :
    other.registry.resolve? (String.ofList chars) =
      grammar.registry.resolve? (String.ofList chars) := by
  cases resolved : grammar.registry.resolve? (String.ofList chars) with
  | none => exact same.unresolved _ resolved
  | some targets =>
      refine same.resolved _ _ resolved fun target member => known target ?_
      refine (TokenPattern.references_iff found).mpr ⟨_, listed, ?_⟩
      rw [TokenPattern.targetsOf, resolved]
      exact member

theorem substituted {id : NodeTypeId} {text : String}
    (substituted : TokenPattern.Substituted grammar id text) :
    TokenPattern.Substituted other id text := by
  induction substituted with
  | @rule id rule text found inner induction =>
      have resolves {chars : List Char}
          (listed : .word chars ∈ TokenPattern.segments rule.pattern.toList) :=
        same.resolve?_eq found (fun target refers => (inner target refers).tokenRule?_isSome) listed
      have found' : other.tokenRule? id = some rule := (same.tokenRule?_eq id).trans found
      have texts : (TokenPattern.segments rule.pattern.toList).map
          (TokenPattern.substitute grammar.registry text) =
          (TokenPattern.segments rule.pattern.toList).map
            (TokenPattern.substitute other.registry text) := by
        apply List.map_congr_left
        intro segment listed
        cases segment with
        | verbatim chars => rfl
        | word chars => simp only [TokenPattern.substitute, resolves listed]
      rw [texts]
      refine .rule text found' fun target refers => induction target ?_
      obtain ⟨segment, listed, member⟩ := (TokenPattern.references_iff found').mp refers
      refine (TokenPattern.references_iff found).mpr ⟨segment, listed, ?_⟩
      cases segment with
      | verbatim chars => exact member
      | word chars =>
          rw [TokenPattern.targetsOf, resolves listed] at member
          exact member

/-- All token patterns expand to the same texts. -/
theorem expandAll_eq {expanded : List (NodeTypeId × String)}
    (expands : TokenPattern.expandAll grammar = .ok expanded) :
    TokenPattern.expandAll other = .ok expanded := by
  rw [TokenPattern.expandAll_eq_ok_iff] at expands ⊢
  rw [same.rules]
  apply expands.imp
  rintro rule entry ⟨named, full, substituted, text⟩
  exact ⟨named, full, same.substituted substituted, text⟩

theorem compileAlternatives_eq {group : Nat} {types : List (NodeTypeId × String)}
    {alternatives : List Alternative}
    (compiled : Tokenizer.compileAlternatives grammar group types = .ok alternatives) :
    Tokenizer.compileAlternatives other group types = .ok alternatives := by
  induction types generalizing group alternatives with
  | nil => exact compiled
  | cons pair types induction =>
      obtain ⟨id, pattern⟩ := pair
      simp only [Tokenizer.compileAlternatives] at compiled ⊢
      cases parsed : Regex.parse? pattern with
      | none => simp [parsed] at compiled
      | some regex =>
          simp only [parsed, bind_eq_ok_iff, pure_eq_ok_iff, same.tokenRule?_eq] at compiled ⊢
          obtain ⟨later, made, rfl⟩ := compiled
          exact ⟨later, induction made, rfl⟩

/-- The tokenizer of a parser depends on its name and its token types. -/
theorem compile_eq {expanded : List (NodeTypeId × String)} {table table' : ParserTable}
    (name : table'.name = table.name) (types : table'.tokenTypes = table.tokenTypes)
    {tokenizer : Tokenizer} (compiled : Tokenizer.compile grammar expanded table = .ok tokenizer) :
    Tokenizer.compile other expanded table' = .ok tokenizer := by
  simp only [Tokenizer.compile, name, types, bind_eq_ok_iff] at compiled ⊢
  obtain ⟨alternatives, made, rest⟩ := compiled
  refine ⟨alternatives, same.compileAlternatives_eq made, ?_⟩
  split_ifs at rest ⊢
  · exact rest
  · split at rest
    · cases rest
    · exact rest

end SameTokens

/-- What an engine is compiled to. -/
theorem ofGrammar_eq_ok_iff {grammar : Grammar} {engine : Engine} :
    ofGrammar grammar = .ok engine ↔
      engine.grammar = grammar ∧ TokenPattern.expandAll grammar = .ok engine.expanded ∧
        List.Forall₂ (fun table tokenizer =>
          Tokenizer.compile grammar engine.expanded table = .ok tokenizer)
          grammar.parsers engine.tokenizers ∧
        List.Forall₂ (fun rule pattern =>
          SymbolPattern.compile grammar.registry (grammar.registry.name rule.nodeType)
            rule.pattern = .ok pattern)
          grammar.parserRules.toList engine.patterns.toList := by
  have listed {patterns : Array SymbolPattern} : grammar.parserRules.mapM (fun rule =>
      SymbolPattern.compile grammar.registry (grammar.registry.name rule.nodeType)
        rule.pattern) = .ok patterns ↔
      grammar.parserRules.toList.mapM (fun rule =>
        SymbolPattern.compile grammar.registry (grammar.registry.name rule.nodeType)
          rule.pattern) = .ok patterns.toList := by
    rw [← Array.toList_mapM]
    cases grammar.parserRules.mapM fun rule =>
        SymbolPattern.compile grammar.registry (grammar.registry.name rule.nodeType)
          rule.pattern with
    | error error => simp
    | ok others => simp [Array.toList_inj]
  simp only [ofGrammar, bind_eq_ok_iff, pure_eq_ok_iff, listed, mapM_eq_ok_iff]
  constructor
  · rintro ⟨_, expands, _, tokenizers, _, patterns, rfl⟩
    exact ⟨rfl, expands, tokenizers, patterns⟩
  · rintro ⟨rfl, expands, tokenizers, patterns⟩
    exact ⟨_, expands, _, tokenizers, _, patterns, rfl⟩

/-- Compiling does not look at keys and groups. -/
theorem ofGrammar_of_unkeyed {rows others : List Row}
    (same : others.map Row.unkeyed = rows.map Row.unkeyed)
    {groups regrouped : String → List PrecedenceGroup} {engine : Engine}
    (compiled : ofGrammar (arranged rows groups) = .ok engine) :
    ofGrammar (arranged others regrouped) =
      .ok { engine with grammar := arranged others regrouped } := by
  have registry : (arranged others regrouped).registry =
      (arranged rows groups).registry := registry_of_unkeyed same
  have tokens : SameTokens (arranged rows groups) (arranged others regrouped) := by
    refine ⟨tokenRules_of_unkeyed same, ?_, ?_⟩
    · rw [registry]
      exact fun _ absent => absent
    · rw [registry]
      exact fun _ _ found _ => found
  rw [ofGrammar_eq_ok_iff] at compiled ⊢
  obtain ⟨_, expands, tokenizers, patterns⟩ := compiled
  refine ⟨rfl, tokens.expandAll_eq expands, ?_, ?_⟩
  · rw [parsers_arranged, List.forall₂_map_left_iff] at tokenizers ⊢
    rw [parserNames_of_unkeyed same, tokenTypesOf_of_unkeyed same]
    exact tokenizers.imp fun _ _ compiled => tokens.compile_eq rfl rfl compiled
  · have blind (list : List Row) : List.Forall₂ (fun rule pattern =>
        SymbolPattern.compile (arranged rows groups).registry
          ((arranged rows groups).registry.name rule.nodeType) rule.pattern = .ok pattern)
        (ungrouped list).parserRules.toList engine.patterns.toList ↔
        List.Forall₂ (fun rule pattern =>
          SymbolPattern.compile (arranged rows groups).registry
            ((arranged rows groups).registry.name rule.nodeType) rule.pattern = .ok pattern)
          ((ungrouped list).parserRules.toList.map ParserRule.unkeyed) engine.patterns.toList := by
      rw [List.forall₂_map_left_iff]
      rfl
    rw [registry]
    apply (blind others).mpr
    rw [parserRules_of_unkeyed same]
    exact (blind rows).mp patterns

/-- The grammar of a compiled engine is an arrangement of its rows, and compiling it again gives the
same engine. -/
theorem Compiled.exists_arranged {engine : Engine} (compiled : engine.Compiled) :
    ∃ rows groups, Arranges rows groups ∧ engine.grammar = arranged rows groups ∧
      ofGrammar engine.grammar = .ok engine := by
  induction compiled with
  | @ofRows rows engine made =>
      obtain ⟨grammar, loaded, compiled⟩ := bind_eq_ok_iff.mp made
      obtain ⟨groups, arranges, same⟩ := load_arranges loaded
      have kept : engine.grammar = grammar := by
        simp only [ofGrammar, bind_eq_ok_iff, pure_eq_ok_iff] at compiled
        obtain ⟨_, _, _, _, _, _, rfl⟩ := compiled
        rfl
      exact ⟨_, groups, arranges, kept.trans same, kept ▸ compiled⟩
  | @relocate engine moved parser group rule _ relocated induction =>
      obtain ⟨rows, groups, arranges, same, compiled⟩ := induction
      obtain ⟨grammar, moves, rfl⟩ := Option.map_eq_some_iff.mp relocated
      rw [same] at moves
      obtain ⟨others, regrouped, arranges_, rfl, unkeyed⟩ := relocate?_arranged arranges moves
      refine ⟨others, regrouped, arranges_, rfl, ?_⟩
      rw [same] at compiled
      exact ofGrammar_of_unkeyed unkeyed compiled

namespace Compiled

variable {engine : Engine} (compiled : engine.Compiled)

include compiled

theorem forall₂_tokenizers : List.Forall₂ (fun table tokenizer =>
    Tokenizer.compile engine.grammar engine.expanded table = .ok tokenizer)
      engine.grammar.parsers engine.tokenizers := by
  obtain ⟨_, _, _, _, same⟩ := compiled.exists_arranged
  exact (ofGrammar_eq_ok_iff.mp same).2.2.1

theorem forall₂_patterns : List.Forall₂ (fun rule pattern =>
    SymbolPattern.compile engine.grammar.registry (engine.grammar.registry.name rule.nodeType)
      rule.pattern = .ok pattern) engine.grammar.parserRules.toList engine.patterns.toList := by
  obtain ⟨_, _, _, _, same⟩ := compiled.exists_arranged
  exact (ofGrammar_eq_ok_iff.mp same).2.2.2

/-- Every rule that an engine may apply has its compiled pattern. -/
theorem exists_pattern {table : ParserTable} (listed : table ∈ engine.grammar.parsers)
    {group : PrecedenceGroup} (member : group ∈ table.groups) {id : RuleId}
    (inside : id ∈ group.rules) :
    ∃ rule pattern, engine.grammar.parserRules[id]? = some rule ∧
      engine.patterns[id]? = some pattern := by
  obtain ⟨rows, groups, arranges, same, _⟩ := compiled.exists_arranged
  have found : engine.grammar.parser? table.name = some table := by
    refine (find?_table_eq_some_iff ?_).mpr ⟨listed, rfl⟩
    rw [same, tableNames_arranged]
    exact parserNames_nodup rows
  rw [same] at found
  obtain ⟨rule, present, _⟩ := arranges.exists_rule found member inside
  rw [← same] at present
  have sizes := compiled.forall₂_patterns.length_eq
  simp only [Array.length_toList] at sizes
  have bounded := (Array.getElem?_eq_some_iff.mp present).1
  exact ⟨rule, _, present, Array.getElem?_eq_getElem (sizes ▸ bounded)⟩

end Compiled

end Engine

end RowGrammar

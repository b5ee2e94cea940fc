import RowGrammar.Proofs.Reduction.Strictness
import RowGrammar.Proofs.Reproduction

/-!
# Strict parses

Strict mode makes errors of what it cannot recognize and changes nothing else.  A parse that
succeeds in strict mode has the same report outside of it, and so has, the other way round, a parse
whose tree has nothing unrecognized.
-/

namespace RowGrammar

open NodeTable ReductionContext

namespace Engine

variable {engine : Engine}

theorem Compiled.proper (compiled : engine.Compiled) (options : ParseOptions) :
    (engine.reduction options).Proper := by
  refine ⟨compiled.name_unrecognized.1, ?_⟩
  intro id rule known
  obtain ⟨rows, groups, arranges, same, _⟩ := compiled.exists_arranged
  change engine.grammar.parserRules[id]? = some rule at known
  change engine.grammar.registry.name rule.nodeType ≠ unrecognizedName
  rw [same] at known ⊢
  obtain ⟨row, found, _, made⟩ := Grammar.exists_row (Array.mem_toList_iff.mpr
    (Array.mem_of_getElem? known))
  rw [made]
  exact arranges.name_ne found

theorem Compiled.name_ne_of_tokenized (compiled : engine.Compiled) {session after : Session}
    {text : String} {options : TokenizeOptions} {tokens : List Token}
    (strict : options.strict = true)
    (tokenized : engine.tokenizeIn session text options = (.ok tokens, after)) :
    ∀ token ∈ tokens, engine.grammar.registry.name token.nodeType ≠ unrecognizedName := by
  refine @known_of_tokenized _ _ _ _ _ _
    (fun id => engine.grammar.registry.name id ≠ unrecognizedName) ?_ ?_ tokenized
  · intro lenient
    rw [strict] at lenient
    cases lenient
  · intro tokenizer member alternative listed
    obtain ⟨rows, groups, place, row, arranges, same, found, numbered⟩ :=
      compiled.exists_row_of_alternative member listed
    rw [same, numbered]
    exact arranges.name_ne found

/-- What a strict parse finds is found outside of strict mode, and nothing of it is unrecognized
unless reducing had to stop. -/
theorem Compiled.parse_lenient (compiled : engine.Compiled) {text : String}
    {options : ParseOptions} {report : ParseReport}
    (parsed : engine.parse text { options with strict := true } = .ok report) :
    engine.parse text { options with strict := false } = .ok report ∧
      (report.halted = false →
        ∀ subtree ∈ report.tree.subtrees, subtree.nodeType ≠ unrecognizedName) := by
  obtain ⟨tokens, session, final, tokenized, reduced⟩ := parse_eq_ok_iff.mp parsed
  obtain ⟨_, held⟩ := nodes_of_tokenized tokenized
  have start : (ReductionState.start session.nodes).Named engine.grammar.registry := by
    intro _ id node got
    obtain ⟨token, member, _, leaf⟩ := exists_token_of_tokenized tokenized got
    rw [leaf]
    exact compiled.name_ne_of_tokenized rfl tokenized token member
  obtain ⟨reduced', named⟩ := ReductionContext.parse_lenient
    (compiled.proper { options with strict := true }) rfl (Session.showsAll_tokens held _) start
    reduced
  constructor
  · exact parse_eq_ok_iff.mpr ⟨tokens, session, final, tokenizeIn_strict tokenized nofun, reduced'⟩
  · intro running subtree part
    obtain ⟨id, node, got, typed⟩ := exists_node_of_subtree (parse_tree reduced) part
    rw [typed]
    exact named ((parse_report reduced).halted.symm.trans running) got

/-- What a parse outside of strict mode finds is found in strict mode when nothing of it is
unrecognized. -/
theorem Compiled.parse_strict (compiled : engine.Compiled) {text : String}
    {options : ParseOptions} {report : ParseReport}
    (parsed : engine.parse text { options with strict := false } = .ok report)
    (recognized : ∀ subtree ∈ report.tree.subtrees, subtree.nodeType ≠ unrecognizedName) :
    engine.parse text { options with strict := true } = .ok report := by
  obtain ⟨tokens, session, final, tokenized, reduced⟩ := parse_eq_ok_iff.mp parsed
  obtain ⟨_, held⟩ := nodes_of_tokenized tokenized
  obtain ⟨nodes, known⟩ := compiled.recognized_of_tree tokenized reduced recognized
  have reduced' := ReductionContext.parse_strict rfl (Session.showsAll_tokens held _) reduced nodes
  exact parse_eq_ok_iff.mpr
    ⟨tokens, session, final, tokenizeIn_strict tokenized fun _ => known, reduced'⟩

/-- Strict mode agrees with the other mode: it reports the same wherever it succeeds, it succeeds
wherever nothing is unrecognized, and nothing is unrecognized where it does not have to stop. -/
theorem parse_modes (compiled : engine.Compiled) (text : String) (options : ParseOptions)
    (report : ParseReport) :
    (engine.parse text { options with strict := true } = .ok report →
      engine.parse text { options with strict := false } = .ok report) ∧
    (engine.parse text { options with strict := false } = .ok report →
      (∀ subtree ∈ report.tree.subtrees, subtree.nodeType ≠ unrecognizedName) →
      engine.parse text { options with strict := true } = .ok report) ∧
    (engine.parse text { options with strict := true } = .ok report → report.halted = false →
      ∀ subtree ∈ report.tree.subtrees, subtree.nodeType ≠ unrecognizedName) :=
  ⟨fun parsed => (compiled.parse_lenient parsed).1, compiled.parse_strict,
    fun parsed => (compiled.parse_lenient parsed).2⟩

/-- Both parsers of a grammar recognize a text, so it is parsed in strict mode as well. -/
theorem parse_modes_nested :
    ∃ report, nestedEngine.parse "a" { strict := false } = .ok report ∧
      nestedEngine.parse "a" { strict := true } = .ok report ∧ report.halted = false ∧
      report.tree = .branch "Outer" [.branch "Inner" [.leaf "Letter" "a"]] ∧
      ∀ subtree ∈ report.tree.subtrees, subtree.nodeType ≠ unrecognizedName := by
  have parsed : nestedEngine.parse "a" { strict := false } = .ok _ := eq_ok_get (by decide +kernel)
  obtain ⟨_, strict, recognized⟩ := parse_modes (.ofRows ofRows_nestedRows) "a" {} _
  have parsed' := strict parsed (by decide +kernel)
  refine ⟨_, parsed, parsed', ?_, by decide +kernel, recognized parsed' ?_⟩
  · decide +kernel
  · decide +kernel

end Engine

end RowGrammar

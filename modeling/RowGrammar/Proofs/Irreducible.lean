import RowGrammar.Proofs.Reduction.LastPass

/-!
# Symbols that no rule reduces

When a parse has not stopped early, it leaves symbols to which no rule of the parser applies any
more.  A rule applies at a position where the preferred one of its routes that capture something
does not merely repeat a type on the chain of a single symbol.  Where the preferred route does, the
rule is passed over, even if another of its routes captures more.
-/

namespace RowGrammar

open Grammar NodeTable SymbolPattern

namespace ReductionContext

variable (context : ReductionContext)

/-- A rule would put its type over a single symbol that has it on its chain of only children. -/
def Repeats (nodes : NodeTable) (symbols : List Symbol) (rule : ParserRule) (span : Span) : Prop :=
  ∃ symbol, span.slice symbols = [symbol] ∧ nodes.chainContains symbol.node rule.nodeType = true

/-- The routes of a pattern through symbols from a position on. -/
def routes (symbols : List Symbol) (idle : Bool) (pattern : SymbolPattern) (start : Nat)
    (choices : Choices) (reached : Path) : Prop :=
  Matches (symbols.map (·.nodeType)).toArray
    (context.absorbs (symbols.map (·.nodeType)).toArray) idle pattern ⟨start, none⟩ choices reached

/-- Whatever a rule of a parser can capture would only repeat a type. -/
def Irreducible (parser : String) (nodes : NodeTable) (symbols : List Symbol) : Prop :=
  ∀ (id : RuleId) rule pattern start, context.grammar.parserRules[id]? = some rule →
    rule.parser = parser → context.patterns[id]? = some pattern →
    ∀ choices stop span, context.routes symbols false pattern start choices ⟨stop, some span⟩ →
      span.isEmpty = false → Repeats nodes symbols rule span

/-- From no position can a rule of a parser capture anything, or what its preferred route captures
would only repeat a type. -/
def Exhausted (parser : String) (nodes : NodeTable) (symbols : List Symbol) : Prop :=
  ∀ (id : RuleId) rule pattern start, context.grammar.parserRules[id]? = some rule →
    rule.parser = parser → context.patterns[id]? = some pattern →
    (∀ choices reached, context.routes symbols true pattern start choices reached →
      ¬reached.Captures) ∨
    ∃ choices stop span, context.routes symbols false pattern start choices ⟨stop, some span⟩ ∧
      (∀ others other, context.routes symbols false pattern start others other →
        other.Captures → others = choices ∧ other = ⟨stop, some span⟩ ∨ Earlier choices others) ∧
      Repeats nodes symbols rule span

/-- The symbols that a parser leaves, before they get a node. -/
def leftOver (parser : String) (symbols : List Symbol) : Reduction (List Symbol) :=
  match context.grammar.parser? parser with
  | none => throw (.unknownParser parser)
  | some table =>
      let steps := context.stepBound symbols.length
      context.reducePasses (context.reduceWith (context.levelBound symbols.length - 1)) parser
        table.groups.zipIdx steps steps symbols

/-- How a parse ends that has left some symbols. -/
inductive Concludes (parser : String) (rest : List Symbol) (after : ReductionState) :
    Except ParseError ParseReport → Prop where
  | reported {root : NodeId} {tree : Tree} {final : ReductionState} :
      context.wrap parser rest after = .ok root final →
      final.nodes.tree? context.grammar.registry root = some tree →
      Concludes parser rest after
        (.ok ⟨root, tree, after.divergence, after.validSteps, after.halted, final.nodes.size⟩)
  | failed {error : ParseError} {final : ReductionState} :
      context.wrap parser rest after = .error error final →
      Concludes parser rest after (.error error)

variable {context}

/-- A rule does not apply at a position where its pattern has no match, or where the match would
only repeat a type. -/
theorem candidateAt?_eq_none_iff {nodes : NodeTable} {symbols : List Symbol} {start : Nat}
    {id : RuleId} {absorb : Bool} {rule : ParserRule} {pattern : SymbolPattern}
    (known : context.grammar.parserRules[id]? = some rule)
    (compiled : context.patterns[id]? = some pattern) :
    context.candidateAt? nodes symbols (symbols.map (·.nodeType)).toArray absorb start id = none ↔
      ∀ found, pattern.matchAt (symbols.map (·.nodeType)).toArray start absorb = some found →
        Repeats nodes symbols rule found.capture := by
  simp only [candidateAt?, known, compiled, Option.bind_eq_bind, Option.bind_some,
    Option.bind_eq_none_iff]
  refine forall_congr' fun found => forall_congr' fun matched => ?_
  obtain ⟨_, _, _, inside, bounded⟩ := matchAt_bounds matched
  simp only [List.size_toArray, List.length_map] at bounded
  simp only [Repeats, Span.slice_eq_singleton_iff (Nat.le_trans inside bounded)]
  cases symbols[found.capture.start]? with
  | none => simp
  | some symbol => simp [and_assoc]

/-- Where no rule of a group applies, its rules are exhausted. -/
theorem exhausted_of_candidate? {parser : String} {groups : List (PrecedenceGroup × Nat)}
    {nodes : NodeTable} {symbols : List Symbol}
    (complete : ∀ (id : RuleId) rule, context.grammar.parserRules[id]? = some rule →
      rule.parser = parser → ∃ group ∈ groups, id ∈ group.1.rules)
    (nothing : ∀ group ∈ groups, context.candidate? nodes group.1 symbols 0 = none) :
    context.Exhausted parser nodes symbols := by
  intro id rule pattern start known owned compiled
  cases matched : pattern.matchAt (symbols.map (·.nodeType)).toArray start
      (context.absorbs (symbols.map (·.nodeType)).toArray) with
  | none => exact .inl fun _ _ leads => not_captures_of_matchAt_eq_none matched leads
  | some found =>
      obtain ⟨_, _, choices, leads, best⟩ := exists_route matched
      obtain ⟨_, from_, filled, inside, bounded⟩ := matchAt_bounds matched
      simp only [List.size_toArray, List.length_map] at bounded
      obtain ⟨group, member, listed⟩ := complete id rule known owned
      have none_ := candidate?_eq_none_iff.mp (nothing group member) start (by omega) id listed
      exact .inr ⟨choices, found.stop, found.capture, leads, best,
        (candidateAt?_eq_none_iff known compiled).mp none_ found matched⟩

/-- A parser that does not delegate leaves symbols, and unless it had to stop, its rules are
exhausted then. -/
theorem leftOver_exhausted {rows : List Row} {groups : String → List PrecedenceGroup}
    (arranges : Arranges rows groups) (same : context.grammar = arranged rows groups)
    (apart : context.grammar.NamesApart) {parser : String} {table : ParserTable}
    (known : context.grammar.parser? parser = some table)
    (direct : ∀ rule ∈ context.grammar.parserRules.toList, rule.parser = parser →
      rule.subparser = none)
    {symbols : List Symbol} (nonempty : symbols ≠ []) {state : ReductionState}
    {forest : List Tree} (shown : state.nodes.ShowsAll context.grammar.registry symbols forest) :
    ∃ rest after, context.leftOver parser symbols state = .ok rest after ∧
      (after.halted = false → context.Exhausted parser after.nodes rest) := by
  have owns := owns_of_arranges arranges same known
  have completes := completes_of_direct direct
    (context.reduceWith (context.levelBound symbols.length - 1))
  have steps := context.potential_lt_stepBound parser (shown.ne_nil.mp nonempty)
  rw [← shown.length_eq] at steps
  obtain ⟨rest, after, passes⟩ := reducePasses_total completes owns
    (context.stepBound symbols.length) (context.stepBound symbols.length) symbols state
  refine ⟨rest, after, by rwa [leftOver, known], ?_⟩
  intro running
  have exhausts := reducePasses_exhausts apart (reduceWith_sound _) owns shown steps steps passes
  rw [running] at exhausts
  refine exhausted_of_candidate? ?_ (exhausts.resolve_left Bool.false_ne_true).1
  intro id rule present owned
  rw [same] at known present
  obtain ⟨group, member, inside⟩ := arranges.exists_group known present owned
  obtain ⟨index, place⟩ := List.getElem?_of_mem member
  exact ⟨(group, index), List.mk_mem_zipIdx_iff_getElem?.mpr place, inside⟩

/-- A parse is decided once reducing its symbols has ended. -/
theorem parse_concludes {parser : String} {symbols rest : List Symbol} {forest : List Tree}
    {state after : ReductionState} (nonempty : symbols ≠ [])
    (shown : state.nodes.ShowsAll context.grammar.registry symbols forest)
    (ended : context.leftOver parser symbols state = .ok rest after) :
    (∃ report final, context.parse parser symbols state = .ok report final ∧
      context.Concludes parser rest after (.ok report)) ∨
    ∃ error final, context.parse parser symbols state = .error error final ∧
      context.Concludes parser rest after (.error error) := by
  obtain ⟨levels, counted⟩ : ∃ levels, context.levelBound symbols.length = levels + 1 :=
    Nat.exists_eq_succ_of_ne_zero (Nat.mul_ne_zero (Nat.succ_ne_zero _) (Nat.succ_ne_zero _))
  rw [leftOver, counted, Nat.add_sub_cancel] at ended
  cases known : context.grammar.parser? parser with
  | none =>
      rw [known] at ended
      cases ended
  | some table =>
      simp only [known] at ended
      have reduced : context.reduceWith (levels + 1) parser symbols state =
          context.wrap parser rest after := by
        rw [reduceWith_succ context known nonempty, ended, Reduction.followed_ok]
      rw [parse_eq, counted, reduced]
      cases wrapped : context.wrap parser rest after with
      | error error final => exact .inr ⟨error, final, rfl, .failed wrapped⟩
      | ok root final =>
          rw [wrapped] at reduced
          obtain ⟨tree, _, below⟩ :=
            (reduceWith_sound _ parser symbols state root final reduced).encloses shown
          obtain ⟨divergence, validSteps, halted⟩ := wrap_final wrapped
          rw [Reduction.followed_ok, below, divergence, validSteps, halted]
          exact .inl ⟨_, final, rfl, .reported wrapped below⟩

end ReductionContext

namespace Engine

open ReductionContext

/-- No reduction is missed where no rule delegates: a parse that has not stopped early leaves
symbols to which no rule of the parser applies at any position. -/
theorem parseIn_exhausted {engine : Engine} (compiled : engine.Compiled)
    (direct : ∀ rule ∈ engine.grammar.parserRules.toList, rule.subparser = none)
    {session : Session} {made tokens : List Token} (reached : session.Reached engine made)
    (own : tokens ⊆ made) (significant : ∃ token ∈ tokens, token.isSignificant)
    (options : ParseOptions)
    (known : (engine.grammar.parser?
      (options.parser.getD engine.grammar.mainParser)).isSome) :
    ∃ rest after,
      (engine.reduction options).leftOver (options.parser.getD engine.grammar.mainParser)
        (tokens.filterMap Token.symbol?) (.start session.nodes) = .ok rest after ∧
      (engine.reduction options).Concludes (options.parser.getD engine.grammar.mainParser) rest
        after (engine.parseIn session tokens options).1 ∧
      (after.halted = false →
        (engine.reduction options).Exhausted (options.parser.getD engine.grammar.mainParser)
          after.nodes rest) := by
  obtain ⟨rows, groups, arranges, same, _⟩ := compiled.exists_arranged
  have apart : (engine.reduction options).grammar.NamesApart := compiled.namesApart
  have shown : (ReductionState.start session.nodes).nodes.ShowsAll
      (engine.reduction options).grammar.registry _ _ :=
    Session.showsAll_tokens (fun token member => reached.holds token (own member)) _
  have nonempty := Session.symbols_ne_nil significant
  obtain ⟨table, found⟩ := Option.isSome_iff_exists.mp known
  have arranged_ : (engine.reduction options).grammar = arranged rows groups := same
  obtain ⟨rest, after, ended, exhausted⟩ := leftOver_exhausted arranges arranged_ apart found
    (fun rule member _ => direct rule member) nonempty shown
  refine ⟨rest, after, ended, ?_, exhausted⟩
  rw [parseIn_eq]
  rcases parse_concludes nonempty shown ended with
    ⟨report, final, parsed, concludes⟩ | ⟨error, final, parsed, concludes⟩
  · rw [parsed]
    exact concludes
  · rw [parsed]
    exact concludes

/-- A type that takes another node after one of its own, but would rather repeat itself. -/
def blockedRows : List Row := [
  .token "main" "Aa" "a",
  .token "main" "Bb" "b",
  .production "main" "Tt" "Aa | Tt | Tt Bb" "1"]

def blockedEngine : Engine :=
  ((ofRows blockedRows).toOption).get (by decide +kernel)

theorem ofRows_blockedRows : ofRows blockedRows = .ok blockedEngine :=
  eq_ok_get _

theorem tokenizeIn_blocked :
    (blockedEngine.tokenizeIn .start "ab" {}).1 =
      .ok [⟨1, "a", 0, some 0⟩, ⟨2, "b", 1, some 1⟩] := by
  decide +kernel

/-- The second node is left next to one that could take it. -/
theorem leftOver_blocked :
    ∃ after, (blockedEngine.reduction {}).leftOver "main" [⟨1, 0⟩, ⟨2, 1⟩]
        (.start (blockedEngine.tokenizeIn .start "ab" {}).2.nodes) =
          .ok [⟨3, 2⟩, ⟨2, 1⟩] after ∧ after.halted = false := by
  have ran : (match (blockedEngine.reduction {}).leftOver "main" [⟨1, 0⟩, ⟨2, 1⟩]
      (.start (blockedEngine.tokenizeIn .start "ab" {}).2.nodes) with
    | .ok rest after => some (rest, after.halted)
    | .error _ _ => none) = some ([⟨3, 2⟩, ⟨2, 1⟩], false) := by
    decide +kernel
  split at ran
  · rename_i rest after ended
    simp only [Option.some.injEq, Prod.mk.injEq] at ran
    obtain ⟨rfl, running⟩ := ran
    exact ⟨after, ended, running⟩
  · cases ran

/-- The rule has a route that takes both symbols. -/
theorem routes_blocked :
    ∃ rule pattern choices, blockedEngine.grammar.parserRules[0]? = some rule ∧
      rule.parser = blockedEngine.grammar.mainParser ∧
      blockedEngine.patterns[0]? = some pattern ∧
      (blockedEngine.reduction {}).routes [⟨3, 2⟩, ⟨2, 1⟩] false pattern 0 choices
        ⟨2, some ⟨0, 2⟩⟩ := by
  -- what the pattern finds when it has to go up to the end
  have found : (do
      let rule ← blockedEngine.grammar.parserRules[0]?
      let pattern ← blockedEngine.patterns[0]?
      let path ← run #[3, 2] false pattern ⟨0, none⟩
        (fun path => if path.stop = 2 then some path else none)
      return (decide (rule.parser = blockedEngine.grammar.mainParser), path)) =
        some (true, ⟨2, some ⟨0, 2⟩⟩) := by
    decide +kernel
  simp only [Option.bind_eq_bind, Option.bind_eq_some_iff, Option.pure_def, Option.some.injEq,
    Prod.mk.injEq, decide_eq_true_eq] at found
  obtain ⟨rule, known, pattern, compiled, path, ran, owned, rfl⟩ := found
  have prefers := run_prefers #[3, 2] false pattern ⟨0, none⟩
    (fun path => if path.stop = 2 then some path else none)
  rw [ran] at prefers
  obtain ⟨choices, reached, leads, ends, _⟩ := prefers
  obtain ⟨_, ⟨⟩⟩ := Option.ite_none_right_eq_some.mp ends
  refine ⟨rule, pattern, choices, known, owned, compiled, ?_⟩
  have recognized : (blockedEngine.reduction {}).absorbs #[3, 2] = false := by decide +kernel
  change Matches #[3, 2] ((blockedEngine.reduction {}).absorbs #[3, 2]) false pattern _ _ _
  rwa [recognized]

/-- The rules of the blocked symbols are exhausted all the same. -/
theorem parseIn_exhausted_blocked :
    ∃ rest after,
      (blockedEngine.reduction {}).leftOver "main" [⟨1, 0⟩, ⟨2, 1⟩]
        (.start (blockedEngine.tokenizeIn .start "ab" {}).2.nodes) = .ok rest after ∧
      rest = [⟨3, 2⟩, ⟨2, 1⟩] ∧
      (blockedEngine.reduction {}).Exhausted "main" after.nodes rest := by
  have main : blockedEngine.grammar.mainParser = "main" := by decide +kernel
  obtain ⟨rest, after, ended, _, exhausted⟩ := parseIn_exhausted (.ofRows ofRows_blockedRows)
    (by decide +kernel) (.tokenized .start (Prod.ext tokenizeIn_blocked rfl))
    (List.Subset.refl _) ⟨_, List.mem_cons_self, rfl⟩ {} (by decide +kernel)
  obtain ⟨after', ended', running⟩ := leftOver_blocked
  change (blockedEngine.reduction {}).leftOver blockedEngine.grammar.mainParser
    [⟨1, 0⟩, ⟨2, 1⟩] _ = _ at ended
  change after.halted = false → (blockedEngine.reduction {}).Exhausted
    blockedEngine.grammar.mainParser _ _ at exhausted
  rw [main] at ended exhausted
  cases ended.symm.trans ended'
  exact ⟨_, _, ended, rfl, exhausted running⟩

/-- Symbols that are left need not be irreducible: the preferred route of a rule may repeat a type
while another route of the rule takes several symbols. -/
theorem not_irreducible_blocked :
    ¬∀ (engine : Engine), engine.Compiled →
      (∀ rule ∈ engine.grammar.parserRules.toList, rule.subparser = none) →
      ∀ (session : Session) (made tokens : List Token), session.Reached engine made →
      tokens ⊆ made → ∀ (options : ParseOptions) (rest : List Symbol) (after : ReductionState),
      (engine.reduction options).leftOver (options.parser.getD engine.grammar.mainParser)
        (tokens.filterMap Token.symbol?) (.start session.nodes) = .ok rest after →
      after.halted = false →
      (engine.reduction options).Irreducible (options.parser.getD engine.grammar.mainParser)
        after.nodes rest := by
  intro general
  have main : blockedEngine.grammar.mainParser = "main" := by decide +kernel
  obtain ⟨after, ended, running⟩ := leftOver_blocked
  rw [← main] at ended
  have irreducible := general blockedEngine (.ofRows ofRows_blockedRows) (by decide +kernel) _ _ _
    (.tokenized .start (Prod.ext tokenizeIn_blocked rfl)) (List.Subset.refl _) {} _ after ended
    running
  obtain ⟨rule, pattern, choices, known, owned, compiled, leads⟩ := routes_blocked
  obtain ⟨symbol, single, _⟩ :=
    irreducible 0 rule pattern 0 known owned compiled choices 2 ⟨0, 2⟩ leads rfl
  cases single

end Engine

end RowGrammar

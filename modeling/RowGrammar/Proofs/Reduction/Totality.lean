import Mathlib.Logic.Relation
import RowGrammar.Proofs.Grammar.Arrangement
import RowGrammar.Proofs.Reduction.Trees

/-!
# Reductions that end in a node

Outside of strict mode only delegation without end can make a reduction fail.  As long as no parser
is reached again from itself, every level of delegation adds a parser to the ones around it, and
there are more levels than parsers.
-/

namespace RowGrammar

namespace Grammar

/-- A rule of one parser has its captured symbols reduced by the other one first. -/
def Delegates (grammar : Grammar) (parser other : String) : Prop :=
  ∃ rule ∈ grammar.parserRules.toList, rule.parser = parser ∧ rule.subparser = some other

/-- Going from parsers to those they delegate to never comes back. -/
def DelegationEnds (grammar : Grammar) : Prop :=
  ∀ parser, ¬Relation.TransGen grammar.Delegates parser parser

end Grammar

namespace ReductionContext

open Grammar

variable {context : ReductionContext} {delegate : String → List Symbol → Reduction NodeId}

/-- A way to reduce that ends in a node for every parser that `parser` delegates to. -/
def Completes (context : ReductionContext) (delegate : String → List Symbol → Reduction NodeId)
    (parser : String) : Prop :=
  ∀ other, context.grammar.Delegates parser other → ∀ symbols, symbols ≠ [] → ∀ state,
    ∃ root final, delegate other symbols state = .ok root final

theorem completes_of_direct {parser : String}
    (direct : ∀ rule ∈ context.grammar.parserRules.toList, rule.parser = parser →
      rule.subparser = none) (delegate : String → List Symbol → Reduction NodeId) :
    context.Completes delegate parser := by
  rintro other ⟨rule, member, owned, delegation⟩
  rw [direct rule member owned] at delegation
  cases delegation

theorem build_total {rule : ParserRule} {parser : String}
    (completes : context.Completes delegate parser)
    (member : rule ∈ context.grammar.parserRules.toList) (owned : rule.parser = parser)
    {captured : List Symbol} (nonempty : captured ≠ []) (state : ReductionState) :
    ∃ node after, build delegate rule captured state = .ok node after := by
  cases delegation : rule.subparser with
  | none => exact ⟨_, _, build_direct delegate delegation captured state⟩
  | some other =>
      obtain ⟨root, final, reduced⟩ :=
        completes other ⟨rule, member, owned, delegation⟩ captured nonempty state
      rw [build_delegated delegate delegation, reduced, Reduction.followed_ok]
      exact ⟨_, _, rfl⟩

/-- The rules of a table belong to its parser. -/
def Owns (context : ReductionContext) (parser : String) (group : PrecedenceGroup) : Prop :=
  ∀ id ∈ group.rules, ∀ rule, context.grammar.parserRules[id]? = some rule → rule.parser = parser

theorem reduceGroup_total {parser : String} (completes : context.Completes delegate parser)
    {group : PrecedenceGroup} (owns : context.Owns parser group) (groupIndex fuel position : Nat)
    (progress : Progress) (state : ReductionState) :
    ∃ final after, context.reduceGroup delegate parser groupIndex group fuel position progress
      state = .ok final after := by
  induction fuel generalizing position progress state with
  | zero => exact ⟨_, _, reduceGroup_zero ..⟩
  | succ fuel induction =>
      cases halts : context.mustHalt state with
      | true => exact ⟨_, _, reduceGroup_halt context delegate halts ..⟩
      | false =>
          cases found : context.candidate? state.nodes group progress.symbols position with
          | none => exact ⟨_, _, reduceGroup_done context delegate halts found ..⟩
          | some candidate =>
              obtain ⟨member, known, filled, inside⟩ := candidate?_eq_some found
              obtain ⟨node, middle, built⟩ := build_total completes
                (Array.mem_toList_iff.mpr (Array.mem_of_getElem? known))
                (owns _ member _ known) (SymbolPattern.Span.slice_ne_nil filled inside) state
              rw [reduceGroup_step context delegate halts found, built, Reduction.followed_ok]
              exact induction _ _ _

theorem reducePass_total {parser : String} (completes : context.Completes delegate parser)
    (fuel : Nat) {groups : List (PrecedenceGroup × Nat)}
    (owns : ∀ group ∈ groups, context.Owns parser group.1) (progress : Progress)
    (state : ReductionState) :
    ∃ final after, context.reducePass delegate parser fuel groups progress state =
      .ok final after := by
  induction groups generalizing progress state with
  | nil => exact ⟨_, _, rfl⟩
  | cons first groups induction =>
      obtain ⟨group, index⟩ := first
      obtain ⟨middle, between, grouped⟩ := reduceGroup_total completes
        (owns _ List.mem_cons_self) index fuel 0 progress state
      rw [reducePass_cons, grouped, Reduction.followed_ok]
      split
      · exact ⟨_, _, rfl⟩
      · exact induction (fun group member => owns group (List.mem_cons_of_mem _ member)) _ _

theorem reducePasses_total {parser : String} (completes : context.Completes delegate parser)
    {groups : List (PrecedenceGroup × Nat)}
    (owns : ∀ group ∈ groups, context.Owns parser group.1) (steps fuel : Nat)
    (symbols : List Symbol) (state : ReductionState) :
    ∃ rest after, context.reducePasses delegate parser groups steps fuel symbols state =
      .ok rest after := by
  induction fuel generalizing symbols state with
  | zero => exact ⟨_, _, rfl⟩
  | succ fuel induction =>
      obtain ⟨progress, between, passed⟩ :=
        reducePass_total completes steps owns ⟨symbols, false, false⟩ state
      rw [reducePasses_succ, passed, Reduction.followed_ok]
      split
      · exact ⟨_, _, rfl⟩
      · exact induction _ _

/-- Outside of strict mode every sequence gets a node. -/
theorem wrap_total (lenient : context.strict = false) (parser : String) (symbols : List Symbol)
    (state : ReductionState) :
    ∃ root final, context.wrap parser symbols state = .ok root final := by
  by_cases single : symbols.length = 1
  · obtain ⟨symbol, rfl⟩ := List.length_eq_one_iff.mp single
    exact ⟨_, _, wrap_single ..⟩
  · rw [wrap_several context single, lenient]
    exact ⟨_, _, rfl⟩

/-- The groups of a parser hold its own rules. -/
theorem owns_of_arranges {rows : List Row} {groups : String → List PrecedenceGroup}
    (arranges : Arranges rows groups) (same : context.grammar = arranged rows groups)
    {parser : String} {table : ParserTable} (known : context.grammar.parser? parser = some table) :
    ∀ group ∈ table.groups.zipIdx, context.Owns parser group.1 := by
  intro group member id inside rule holds
  have listed := List.fst_mem_of_mem_zipIdx member
  rw [same] at known holds
  obtain ⟨rule', holds', owned, _⟩ := arranges.exists_rule known listed inside
  rw [holds', Option.some.injEq] at holds
  exact holds ▸ owned

/-- What holds at a level of delegation whenever it holds one level below for all parsers that are
delegated to holds at every level above the number of parsers: each level adds a parser to those
around it. -/
theorem delegation_induction {rows : List Row} {groups : String → List PrecedenceGroup}
    (arranges : Arranges rows groups) (ends : (arranged rows groups).DelegationEnds)
    {motive : Nat → String → Prop}
    (step : ∀ levels parser, parser ∈ parserNames rows →
      (∀ other, (arranged rows groups).Delegates parser other → motive levels other) →
      motive (levels + 1) parser)
    {levels : Nat} {parser : String} (known : parser ∈ parserNames rows)
    (enough : (parserNames rows).length < levels) : motive levels parser := by
  have nested (levels : Nat) (around : List String) (parser : String) (nodup : around.Nodup)
      (parsers : around ⊆ parserNames rows)
      (reached : ∀ name ∈ around, Relation.TransGen (arranged rows groups).Delegates name parser)
      (known : parser ∈ parserNames rows)
      (enough : (parserNames rows).length < around.length + levels) : motive levels parser := by
    induction levels generalizing around parser with
    | zero =>
        have bounded := nodup.length_le_of_subset parsers
        omega
    | succ levels induction =>
        have outside : parser ∉ around := fun inside => ends parser (reached parser inside)
        apply step levels parser known
        intro other delegates
        refine induction (parser :: around) other (List.nodup_cons.mpr ⟨outside, nodup⟩)
          (List.cons_subset.mpr ⟨known, parsers⟩) ?_ ?_ ?_
        · intro name member
          rcases List.mem_cons.mp member with rfl | earlier
          · exact .single delegates
          · exact (reached name earlier).tail delegates
        · obtain ⟨rule, member, _, delegation⟩ := delegates
          have listed : (rule.nodeType, other) ∈ (arranged rows groups).delegations :=
            List.mem_append_right _
              (List.mem_filterMap.mpr ⟨rule, member, by simp [delegation]⟩)
          have present := arranges.parser?_isSome_of_delegation listed
          rwa [parser?, find?_table_isSome_iff, tableNames_arranged] at present
        · rw [List.length_cons]
          omega
  refine nested levels [] parser List.nodup_nil (List.nil_subset _) (List.forall_mem_nil _) known ?_
  rwa [List.length_nil, Nat.zero_add]

/-- Outside of strict mode every sequence is reduced to a node if there are levels enough. -/
theorem reduceWith_total {rows : List Row} {groups : String → List PrecedenceGroup}
    (arranges : Arranges rows groups) (same : context.grammar = arranged rows groups)
    (lenient : context.strict = false) (ends : context.grammar.DelegationEnds)
    {levels : Nat} {parser : String} (known : parser ∈ parserNames rows)
    (enough : (parserNames rows).length < levels) :
    ∀ symbols, symbols ≠ [] → ∀ state, ∃ root final,
      context.reduceWith levels parser symbols state = .ok root final := by
  rw [same] at ends
  refine delegation_induction arranges ends (motive := fun levels parser => ∀ symbols,
    symbols ≠ [] → ∀ state, ∃ root final,
      context.reduceWith levels parser symbols state = .ok root final) ?_ known enough
  intro levels parser known inner symbols nonempty state
  obtain ⟨table, found⟩ : ∃ table, context.grammar.parser? parser = some table := by
    rw [same]
    exact ⟨_, parser?_arranged.mpr ⟨known, rfl⟩⟩
  have completes : context.Completes (context.reduceWith levels) parser := by
    rw [Completes, same]
    exact inner
  obtain ⟨rest, after, passes⟩ := reducePasses_total completes
    (owns_of_arranges arranges same found)
    (context.stepBound symbols.length) (context.stepBound symbols.length) symbols state
  rw [reduceWith_succ context found nonempty, passes, Reduction.followed_ok]
  exact wrap_total lenient parser rest after

/-- There are more levels than parsers. -/
theorem length_lt_levelBound {rows : List Row} {groups : String → List PrecedenceGroup}
    (same : context.grammar = arranged rows groups) (count : Nat) :
    (parserNames rows).length < context.levelBound count := by
  have tables := congrArg List.length (tableNames_arranged rows groups)
  rw [tableNames, List.length_map, ← same] at tables
  have positive : 0 < context.stepBound count + 1 := Nat.succ_pos _
  calc (parserNames rows).length
      < context.grammar.parsers.length + 1 := by rw [tables]; exact Nat.lt_succ_self _
    _ ≤ (context.grammar.parsers.length + 1) * (context.stepBound count + 1) :=
        Nat.le_mul_of_pos_right _ positive
    _ = context.levelBound count := rfl

/-- Outside of strict mode a parse of some symbols succeeds unless delegation goes on for ever. -/
theorem parse_total (context : ReductionContext) {rows : List Row}
    {groups : String → List PrecedenceGroup}
    (arranges : Arranges rows groups) (same : context.grammar = arranged rows groups)
    (lenient : context.strict = false) (ends : context.grammar.DelegationEnds) {parser : String}
    (known : (context.grammar.parser? parser).isSome) {symbols : List Symbol}
    (nonempty : symbols ≠ []) {forest : List Tree} {state : ReductionState}
    (shown : state.nodes.ShowsAll context.grammar.registry symbols forest) :
    ∃ report final, context.parse parser symbols state = .ok report final := by
  have listed : parser ∈ parserNames rows := by
    rwa [parser?, find?_table_isSome_iff, same, tableNames_arranged] at known
  obtain ⟨root, final, reduced⟩ := reduceWith_total arranges same lenient ends listed
    (length_lt_levelBound same symbols.length) symbols nonempty state
  obtain ⟨tree, _, below⟩ :=
    (reduceWith_sound _ parser symbols state root final reduced).encloses shown
  rw [parse_eq, reduced, Reduction.followed_ok, below]
  exact ⟨_, _, rfl⟩

end ReductionContext

end RowGrammar

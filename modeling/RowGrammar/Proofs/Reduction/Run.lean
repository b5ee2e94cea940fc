import RowGrammar.Proofs.Forest
import RowGrammar.Proofs.NodeTable
import RowGrammar.Proofs.Reduction.Equations
import RowGrammar.Proofs.SymbolPattern.Preference

/-!
# Runs of a reduction

`Reaches` lists everything a reduction may do to its sequence and its state: stop, put a node over
some symbols, or let another parser reduce them first.  What a whole run keeps follows by induction
on it; above all, the trees of the symbols grow by building over neighbours only.
-/

namespace RowGrammar.ReductionContext

variable {context : ReductionContext}

/-- What is known of a rule that can be applied at a position. -/
theorem candidateAt?_eq_some {nodes : NodeTable} {symbols : List Symbol}
    {kinds : Array NodeTypeId} {absorb : Bool} {start : Nat} {id : RuleId}
    {candidate : Candidate}
    (found : context.candidateAt? nodes symbols kinds absorb start id = some candidate) :
    candidate.id = id ∧ context.grammar.parserRules[id]? = some candidate.rule ∧
      ∃ pattern, context.patterns[id]? = some pattern ∧
        pattern.matchAt kinds start absorb = some candidate.found := by
  simp only [candidateAt?, Option.bind_eq_bind, Option.bind_eq_some_iff] at found
  obtain ⟨rule, known, pattern, compiled, found, matched, made⟩ := found
  split at made
  · simp at made
  · simp only [Option.pure_def, Option.some.injEq] at made
    subst made
    exact ⟨rfl, known, pattern, compiled, matched⟩

/-- A rule that can be applied belongs to the group and captures some of the symbols. -/
theorem candidate?_eq_some {nodes : NodeTable} {group : PrecedenceGroup}
    {symbols : List Symbol} {position : Nat} {candidate : Candidate}
    (found : context.candidate? nodes group symbols position = some candidate) :
    candidate.id ∈ group.rules ∧
      context.grammar.parserRules[candidate.id]? = some candidate.rule ∧
      candidate.found.capture.start < candidate.found.capture.stop ∧
      candidate.found.capture.stop ≤ symbols.length := by
  simp only [candidate?] at found
  obtain ⟨start, _, foundAt⟩ := List.exists_of_findSome?_eq_some found
  obtain ⟨id, member, applies⟩ := List.exists_of_findSome?_eq_some foundAt
  obtain ⟨rfl, known, pattern, _, matched⟩ := candidateAt?_eq_some applies
  obtain ⟨_, _, filled, inside, bounded⟩ := SymbolPattern.matchAt_bounds matched
  simp only [List.size_toArray, List.length_map] at bounded
  exact ⟨member, known, filled, by omega⟩

/-- What a parser can do to a sequence of symbols and the state, one event after the other. -/
inductive Reaches (context : ReductionContext) :
    String → List Symbol → ReductionState → List Symbol → ReductionState → Prop where
  | refl (parser : String) (symbols : List Symbol) (state : ReductionState) :
      Reaches context parser symbols state symbols state
  /-- Reducing has to stop. -/
  | halt {parser : String} {symbols current : List Symbol} {state middle : ReductionState} :
      Reaches context parser symbols state current middle →
      context.mustHalt middle = true →
      Reaches context parser symbols state current { middle with halted := true }
  /-- A rule puts a node over the symbols it captures. -/
  | direct {parser : String} {symbols current : List Symbol} {state middle : ReductionState}
      {table : ParserTable} {group : PrecedenceGroup} {groupIndex position : Nat}
      {candidate : Candidate} :
      Reaches context parser symbols state current middle →
      context.mustHalt middle = false →
      context.grammar.parser? parser = some table →
      (group, groupIndex) ∈ table.groups.zipIdx →
      context.candidate? middle.nodes group current position = some candidate →
      candidate.rule.subparser = none →
      Reaches context parser symbols state
        (candidate.found.capture.splice ⟨candidate.rule.nodeType, middle.nodes.size⟩ current)
        (context.judge candidate parser groupIndex middle.nodes.size
          { middle with
            nodes := middle.nodes.push ⟨candidate.rule.nodeType,
              .children ((candidate.found.capture.slice current).map (·.node))⟩ })
  /-- Another parser reduces the captured symbols, and the rule puts a node over the result. -/
  | delegated {parser inner : String} {symbols current rest : List Symbol}
      {state middle after final : ReductionState} {table : ParserTable}
      {group : PrecedenceGroup} {groupIndex position : Nat} {candidate : Candidate}
      {root : NodeId} :
      Reaches context parser symbols state current middle →
      context.mustHalt middle = false →
      context.grammar.parser? parser = some table →
      (group, groupIndex) ∈ table.groups.zipIdx →
      context.candidate? middle.nodes group current position = some candidate →
      candidate.rule.subparser = some inner →
      Reaches context inner (candidate.found.capture.slice current) middle rest after →
      context.wrap inner rest after = .ok root final →
      Reaches context parser symbols state
        (candidate.found.capture.splice ⟨candidate.rule.nodeType, final.nodes.size⟩ current)
        (context.judge candidate parser groupIndex final.nodes.size
          { final with
            nodes := final.nodes.push ⟨candidate.rule.nodeType, .children [root]⟩ })

namespace Reaches

theorem trans {parser : String} {symbols current rest : List Symbol}
    {state middle after : ReductionState}
    (one : Reaches context parser symbols state current middle)
    (two : Reaches context parser current middle rest after) :
    Reaches context parser symbols state rest after := by
  induction two with
  | refl => exact one
  | halt _ halts induction => exact .halt (induction one) halts
  | direct _ runs known member found direct induction =>
      exact .direct (induction one) runs known member found direct
  | delegated _ runs known member found delegated inner wrapped induction _ =>
      exact .delegated (induction one) runs known member found delegated inner wrapped

end Reaches

/-- What a parser does to a sequence that it reduces to one node. -/
def Reduces (context : ReductionContext) (parser : String) (symbols : List Symbol)
    (state : ReductionState) (root : NodeId) (final : ReductionState) : Prop :=
  symbols ≠ [] ∧ ∃ rest after,
    context.Reaches parser symbols state rest after ∧
      context.wrap parser rest after = .ok root final

section Soundness

variable {delegate : String → List Symbol → Reduction NodeId}

/-- A way to reduce that does nothing but what `Reduces` lists. -/
def Sound (context : ReductionContext) (delegate : String → List Symbol → Reduction NodeId) :
    Prop :=
  ∀ parser symbols state root final,
    delegate parser symbols state = .ok root final →
      context.Reduces parser symbols state root final

/-- Making the node of a candidate is one event. -/
theorem build_reaches (sound : context.Sound delegate) {parser : String} {table : ParserTable}
    (known : context.grammar.parser? parser = some table) {group : PrecedenceGroup}
    {groupIndex position : Nat} (member : (group, groupIndex) ∈ table.groups.zipIdx)
    {symbols : List Symbol} {state middle : ReductionState} {candidate : Candidate}
    {node : NodeId} (runs : context.mustHalt state = false)
    (found : context.candidate? state.nodes group symbols position = some candidate)
    (built : build delegate candidate.rule (candidate.found.capture.slice symbols) state =
      .ok node middle) :
    context.Reaches parser symbols state
      (candidate.found.capture.splice ⟨candidate.rule.nodeType, node⟩ symbols)
      (context.judge candidate parser groupIndex node middle) := by
  cases delegation : candidate.rule.subparser with
  | none =>
      rw [build_direct delegate delegation] at built
      cases built
      exact .direct (.refl _ _ _) runs known member found delegation
  | some inner =>
      rw [build_delegated delegate delegation, Reduction.followed_eq_ok_iff] at built
      obtain ⟨root, reduced, inside, made⟩ := built
      cases made
      obtain ⟨_, last, wrapped, reached, ends⟩ := sound _ _ _ _ _ inside
      exact .delegated (.refl _ _ _) runs known member found delegation reached ends

theorem reduceGroup_reaches (sound : context.Sound delegate) {parser : String}
    {table : ParserTable} (known : context.grammar.parser? parser = some table)
    {group : PrecedenceGroup} {groupIndex : Nat}
    (member : (group, groupIndex) ∈ table.groups.zipIdx) {fuel position : Nat}
    {progress final : Progress} {state after : ReductionState}
    (ran : context.reduceGroup delegate parser groupIndex group fuel position progress state =
      .ok final after) :
    context.Reaches parser progress.symbols state final.symbols after := by
  induction fuel generalizing position progress state with
  | zero =>
      rw [reduceGroup_zero] at ran
      cases ran
      exact .refl _ _ _
  | succ fuel induction =>
      cases halts : context.mustHalt state with
      | true =>
          rw [reduceGroup_halt context delegate halts] at ran
          cases ran
          exact .halt (.refl _ _ _) halts
      | false =>
          cases found : context.candidate? state.nodes group progress.symbols position with
          | none =>
              rw [reduceGroup_done context delegate halts found] at ran
              cases ran
              exact .refl _ _ _
          | some candidate =>
              rw [reduceGroup_step context delegate halts found,
                Reduction.followed_eq_ok_iff] at ran
              obtain ⟨node, middle, built, rest⟩ := ran
              have later := induction rest
              exact (build_reaches sound known member halts found built).trans later

theorem reducePass_reaches (sound : context.Sound delegate) {parser : String}
    {table : ParserTable} (known : context.grammar.parser? parser = some table) {fuel : Nat}
    {groups : List (PrecedenceGroup × Nat)} (members : groups ⊆ table.groups.zipIdx)
    {progress final : Progress} {state after : ReductionState}
    (ran : context.reducePass delegate parser fuel groups progress state = .ok final after) :
    context.Reaches parser progress.symbols state final.symbols after := by
  induction groups generalizing progress state with
  | nil =>
      cases ran
      exact .refl _ _ _
  | cons first groups induction =>
      obtain ⟨group, index⟩ := first
      rw [reducePass_cons, Reduction.followed_eq_ok_iff] at ran
      obtain ⟨middle, between, grouped, rest⟩ := ran
      have one := reduceGroup_reaches sound known (members List.mem_cons_self) grouped
      split at rest
      · cases rest
        exact one
      · exact one.trans (induction (List.subset_of_cons_subset members) rest)

theorem reducePasses_reaches (sound : context.Sound delegate) {parser : String}
    {table : ParserTable} (known : context.grammar.parser? parser = some table)
    {steps fuel : Nat} {symbols rest : List Symbol} {state after : ReductionState}
    (ran : context.reducePasses delegate parser table.groups.zipIdx steps fuel symbols state =
      .ok rest after) :
    context.Reaches parser symbols state rest after := by
  induction fuel generalizing symbols state with
  | zero =>
      cases ran
      exact .refl _ _ _
  | succ fuel induction =>
      rw [reducePasses_succ, Reduction.followed_eq_ok_iff] at ran
      obtain ⟨progress, between, passed, remaining⟩ := ran
      have one := reducePass_reaches sound known (List.Subset.refl _) passed
      split at remaining
      · cases remaining
        exact one
      · exact one.trans (induction remaining)

end Soundness

/-- A reduction that succeeds does nothing but what `Reduces` lists. -/
theorem reduceWith_sound (levels : Nat) : context.Sound (context.reduceWith levels) := by
  induction levels with
  | zero => intro parser symbols state root final ran; cases ran
  | succ levels induction =>
      intro parser symbols state root final ran
      by_cases empty : symbols = []
      · subst empty
        cases ran
      · cases known : context.grammar.parser? parser with
        | none =>
            rw [reduceWith_unknown context known empty] at ran
            cases ran
        | some table =>
            rw [reduceWith_succ context known empty, Reduction.followed_eq_ok_iff] at ran
            obtain ⟨rest, after, passes, wrapped⟩ := ran
            exact ⟨empty, rest, after, reducePasses_reaches induction known passes, wrapped⟩

end RowGrammar.ReductionContext

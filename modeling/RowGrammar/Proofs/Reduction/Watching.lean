import RowGrammar.Proofs.Reduction.Simulation

/-!
# Reductions under other settings

Strictness, the node limit and the expected tree make a reduction stop or fail, but none of them
steers it.  So a run whose states meet everything that other settings ask for is the same under
these.  Above all, the nodes of a run stay part of the tree that it ends with, and a run that is
compared with its own tree goes through.
-/

namespace RowGrammar

open NodeTable

/-- Two states with the same nodes, all of them expected so far. -/
structure ReductionState.Alike (state other : ReductionState) : Prop where
  nodes : other.nodes = state.nodes
  halted : other.halted = state.halted
  agreed : state.divergence = none
  agreed' : other.divergence = none

theorem ReductionState.Alike.start (nodes : NodeTable) :
    (ReductionState.start nodes).Alike (.start nodes) :=
  ⟨rfl, rfl, rfl, rfl⟩

namespace ReductionContext

/-- What calm states have to be like for the settings of another reduction not to interfere. -/
structure Tolerates (calm : ReductionState → Prop) (context other : ReductionContext) : Prop where
  grammar : other.grammar = context.grammar
  patterns : other.patterns = context.patterns
  lasting : ∀ {state later : ReductionState}, state.Precedes later → calm later → calm state
  agreed : ∀ {state : ReductionState}, calm state → state.divergence = none
  limit : other.maxNodes = context.maxNodes ∨
    other.maxNodes = none ∧ ∀ {state : ReductionState}, calm state → state.halted = false
  strict : other.strict = context.strict ∨
    context.strict = false ∧ ∀ {state : ReductionState}, calm state →
      ∀ {id : NodeId} {node : Node}, state.nodes.get? id = some node → node.nodeType ≠ unrecognized
  expected : ∀ {subtrees : List Tree}, other.expected = some subtrees →
    ∀ {state : ReductionState}, calm state →
      ∀ {id : NodeId} {nodeType : NodeTypeId} {children : List NodeId} {tree : Tree},
        state.nodes.get? id = some ⟨nodeType, .children children⟩ →
        state.nodes.tree? context.grammar.registry id = some tree → tree ∈ subtrees

namespace Tolerates

variable {calm : ReductionState → Prop} {context other : ReductionContext}
  (tolerates : Tolerates calm context other)

include tolerates

/-- Unrecognized symbols are taken along in both reductions or in none. -/
theorem absorbs_eq {state : ReductionState} {symbols : List Symbol} {forest : List Tree}
    (shown : state.nodes.ShowsAll context.grammar.registry symbols forest) (quiet : calm state) :
    other.absorbs (symbols.map (·.nodeType)).toArray =
      context.absorbs (symbols.map (·.nodeType)).toArray := by
  rcases tolerates.strict with same | ⟨lenient, recognized⟩
  · rw [absorbs, absorbs, same]
  · have absent := shown.contains_unrecognized (recognized quiet)
    rw [absorbs, absorbs, absent, Bool.and_false, Bool.and_false]

/-- Comparing with another expected tree finds no divergence either. -/
theorem judge_agreed {state state' : ReductionState} (alike : state.Alike state')
    (candidate candidate' : Candidate) (parser : String) (group : Nat) {node : NodeId}
    {nodeType : NodeTypeId} {children : List NodeId}
    (present : state.nodes.get? node = some ⟨nodeType, .children children⟩)
    (quiet : calm (context.judge candidate parser group node state)) :
    (other.judge candidate' parser group node state').divergence = none := by
  have expected {subtrees : List Tree} (given : other.expected = some subtrees) {tree : Tree}
      (found : state.nodes.tree? context.grammar.registry node = some tree) :
      tree ∈ subtrees := by
    apply tolerates.expected given quiet
    · rwa [judge_nodes]
    · rwa [judge_nodes]
  have verdict := other.judge_verdict candidate' parser group node state'
  generalize other.judge candidate' parser group node state' = after at verdict
  cases verdict with
  | ignored _ => exact alike.agreed'
  | agreed _ _ _ _ => exact alike.agreed'
  | diverged given _ found unexpected =>
      rw [tolerates.grammar, alike.nodes] at found
      exact absurd (expected given found) unexpected

/-- A stop is the only thing that comparing leaves as it is. -/
theorem judge_alike {state state' : ReductionState} (alike : state.Alike state')
    {candidate candidate' : Candidate} (parser : String) (group : Nat) {node : NodeId}
    {nodeType : NodeTypeId} {children : List NodeId}
    (present : state.nodes.get? node = some ⟨nodeType, .children children⟩)
    (quiet : calm (context.judge candidate parser group node state)) :
    (context.judge candidate parser group node state).Alike
      (other.judge candidate' parser group node state') where
  nodes := by rw [judge_nodes, judge_nodes, alike.nodes]
  halted := by rw [judge_halted, judge_halted, alike.halted]
  agreed := tolerates.agreed quiet
  agreed' := tolerates.judge_agreed alike candidate candidate' parser group present quiet

/-- The other reduction keeps up, since its settings do not interfere. -/
theorem simulates : Simulates id id calm (fun _ => False) ReductionState.Alike context other where
  same := .of_eq tolerates.grammar tolerates.patterns
  lasting := context.respects_precedes.mono tolerates.lasting fun one two => one ∘ two
  nodes alike := by rw [rename_id, alike.nodes]
  push alike node _ := by
    refine ⟨?_, alike.halted, alike.agreed, alike.agreed'⟩
    simp only [alike.nodes]
    rfl
  run := by
    intro state state' alike quiet runs
    simp only [mustHalt, Bool.or_eq_false_iff] at runs ⊢
    obtain ⟨⟨running, _⟩, below⟩ := runs
    rw [alike.halted, alike.agreed', alike.nodes]
    refine ⟨⟨running, rfl⟩, ?_⟩
    rcases tolerates.limit with same | ⟨unlimited, _⟩
    · rw [same, below]
    · rw [unlimited]
      rfl
  halt := by
    intro state state' alike quiet halts
    refine ⟨?_, alike.nodes, rfl, alike.agreed, alike.agreed'⟩
    rcases tolerates.limit with same | ⟨_, running⟩
    · rwa [mustHalt, alike.halted, alike.agreed', alike.nodes, same, ← alike.agreed]
    · cases running quiet
  absorbs shown _ quiet _ := by
    rw [Array.map_id]
    exact tolerates.absorbs_eq shown quiet
  judge parser group alike _ present quiet :=
    tolerates.judge_alike alike parser group present quiet
  wrap := by
    intro state state' parser symbols alike several quiet
    rw [alike.halted]
    rcases tolerates.strict with same | ⟨lenient, recognized⟩
    · rw [same]
      exact .inl rfl
    · rw [wrap_several context several, lenient] at quiet
      exact absurd rfl (recognized quiet (get?_push_size _ _))

/-- A parse that ends calm ends with the same tree under the other settings. -/
theorem parse_eq_ok {parser : String} {symbols : List Symbol} {forest : List Tree}
    {nodes : NodeTable} {report : ParseReport} {final : ReductionState}
    (shown : nodes.ShowsAll context.grammar.registry symbols forest)
    (parsed : context.parse parser symbols (.start nodes) = .ok report final) (quiet : calm final) :
    ∃ report' final', other.parse parser symbols (.start nodes) = .ok report' final' ∧
      report'.divergence = none ∧ report'.tree = report.tree := by
  have ends : calm (Reduction.Result.final (context.parse parser symbols (.start nodes))) := by
    rwa [parsed]
  obtain ⟨final', alike, parsed'⟩ :=
    (tolerates.simulates.parse_simulated shown (.start nodes) ends).1 report final parsed
  have renamed : Symbol.rename id = id := rfl
  rw [renamed, List.map_id] at parsed'
  exact ⟨_, final', parsed', alike.agreed', rfl⟩

end Tolerates

/-! ## The expected tree -/

/-- A run that meets no divergence goes on as if nothing was expected. -/
theorem tolerates_unwatched (context : ReductionContext) :
    Tolerates (·.divergence = none) context { context with expected := none } where
  grammar := rfl
  patterns := rfl
  lasting precedes := precedes.agreed
  agreed := id
  limit := .inl rfl
  strict := .inl rfl
  expected := nofun

/-- Everything that has been built so far is one of some trees. -/
structure Within (context : ReductionContext) (subtrees : List Tree) (state : ReductionState) :
    Prop where
  agreed : state.divergence = none
  built : ∀ {id : NodeId} {nodeType : NodeTypeId} {children : List NodeId} {tree : Tree},
    state.nodes.get? id = some ⟨nodeType, .children children⟩ →
    state.nodes.tree? context.grammar.registry id = some tree → tree ∈ subtrees

/-- A run that builds nothing but subtrees of the expected tree can as well be compared with it. -/
theorem tolerates_watched (context : ReductionContext) (subtrees : List Tree) :
    Tolerates (context.Within subtrees) { context with expected := none }
      { context with expected := some subtrees } where
  grammar := rfl
  patterns := rfl
  lasting := by
    rintro state later ⟨⟨added, grows⟩, agreed, _⟩ quiet
    refine ⟨agreed quiet.agreed, ?_⟩
    intro id nodeType children tree present found
    exact quiet.built (grows.get? present) (tree?_mono grows found)
  agreed quiet := quiet.agreed
  limit := .inl rfl
  strict := .inl rfl
  expected given _ quiet _ _ _ _ present found := by
    cases given
    exact quiet.built present found

/-- Without an expected tree nothing is a divergence. -/
theorem respects_unwatched {context : ReductionContext} (unwatched : context.expected = none) :
    context.Respects fun state later => state.divergence = none → later.divergence = none where
  refl _ := id
  trans one two := two ∘ one
  push _ _ := id
  halt _ _ := id
  judge _ _ _ _ _ := by
    rw [(Verdict.ignored (.inl unwatched)).judge_eq]
    exact id

/-- What a parse of leaves has built is part of the tree that it reports. -/
theorem parse_within {context : ReductionContext} (unwatched : context.expected = none)
    {parser : String} {symbols : List Symbol} {forest : List Tree} {nodes : NodeTable}
    {report : ParseReport} {final : ReductionState}
    (shown : nodes.ShowsAll context.grammar.registry symbols forest)
    (leaves : ∀ {id : NodeId} {node : Node}, nodes.get? id = some node →
      ∃ text, node.payload = .text text)
    (parsed : context.parse parser symbols (.start nodes) = .ok report final) :
    context.Within report.tree.subtrees final := by
  obtain ⟨⟨added, grows, _⟩, below⟩ := context.parse_encloses shown parsed
  constructor
  · have agreed := (respects_unwatched unwatched).parse parser symbols (.start nodes)
    rw [Reduction.Carries, parsed] at agreed
    exact agreed rfl
  · intro id nodeType children tree present found
    by_cases early : id < nodes.size
    · obtain ⟨node, got⟩ : ∃ node, nodes.get? id = some node :=
        ⟨_, Array.getElem?_eq_getElem early⟩
      obtain ⟨text, leaf⟩ := leaves got
      have same := present.symm.trans (grows.get? got)
      cases same
      cases leaf
    · obtain ⟨subtree, part, found'⟩ :=
        below id (Nat.le_of_not_lt early) (lt_size_of_tree? found)
      rw [found, Option.some.injEq] at found'
      simpa [Tree.subtreesList, found'] using part

end ReductionContext

end RowGrammar

import RowGrammar.Proofs.Reduction.Run

/-!
# Trees of a run

However a run goes on, the trees of its symbols grow by building over neighbours, one branch for
every node that is made.  So the tree of the result has the leaves of the symbols it started from.
-/

namespace RowGrammar

namespace Tree.Builds

open SymbolPattern

/-- Building over the items of a span. -/
theorem splice {forest : List Tree} {types : List String} {tree : Tree} {span : Span}
    (ordered : span.start ≤ span.stop) (builds : Builds (span.slice forest) types [tree]) :
    Builds forest types (span.splice tree forest) := by
  have inside := builds.within (forest.take span.start) (forest.drop span.stop)
  rw [Span.take_slice_drop ordered] at inside
  simpa [Span.splice] using inside

theorem ne_nil {forest forest' : List Tree} {types : List String}
    (builds : Builds forest types forest') (nonempty : forest ≠ []) : forest' ≠ [] := by
  cases builds with
  | refl => exact nonempty
  | step => simp

end Tree.Builds

namespace NodeTable

open RowGrammar.Tree

/-- A table gets one new node for every branch that is put over trees of a forest. -/
def Extends (table : NodeTable) (registry : Registry) (forest : List Tree) (later : NodeTable)
    (forest' : List Tree) : Prop :=
  ∃ added, table.Grows added later ∧
    Builds forest (added.map fun node => registry.name node.nodeType) forest'

namespace Extends

variable {table later : NodeTable} {registry : Registry} {forest forest' : List Tree}

theorem refl (table : NodeTable) (registry : Registry) (forest : List Tree) :
    table.Extends registry forest table forest :=
  ⟨[], .refl _, .refl _⟩

theorem trans {last : NodeTable} {forest'' : List Tree}
    (one : table.Extends registry forest later forest')
    (two : later.Extends registry forest' last forest'') :
    table.Extends registry forest last forest'' := by
  obtain ⟨added, grows, builds⟩ := one
  obtain ⟨further, grew, built⟩ := two
  refine ⟨added ++ further, grows.trans grew, ?_⟩
  rw [List.map_append]
  exact builds.trans built

/-- A new node over a whole forest. -/
theorem push (table : NodeTable) (registry : Registry) (node : Node) (nonempty : forest ≠ []) :
    table.Extends registry forest (table.push node)
      [.branch (registry.name node.nodeType) forest] :=
  ⟨[node], .push _ _, .wrap _ nonempty⟩

theorem splice {tree : Tree} {span : SymbolPattern.Span} (ordered : span.start ≤ span.stop)
    (extends_ : table.Extends registry (span.slice forest) later [tree]) :
    table.Extends registry forest later (span.splice tree forest) := by
  obtain ⟨added, grows, builds⟩ := extends_
  exact ⟨added, grows, builds.splice ordered⟩

theorem ne_nil (extends_ : table.Extends registry forest later forest') (nonempty : forest ≠ []) :
    forest' ≠ [] := by
  obtain ⟨_, _, builds⟩ := extends_
  exact builds.ne_nil nonempty

end Extends

/-- Besides, the trees below the new nodes are all part of the new forest. -/
structure Encloses (table : NodeTable) (registry : Registry) (forest : List Tree)
    (later : NodeTable) (forest' : List Tree) : Prop where
  extends_ : table.Extends registry forest later forest'
  below : ∀ id, table.size ≤ id → id < later.size →
    ∃ tree ∈ subtreesList forest', later.tree? registry id = some tree

namespace Encloses

variable {table later : NodeTable} {registry : Registry} {forest forest' : List Tree}

theorem refl (table : NodeTable) (registry : Registry) (forest : List Tree) :
    table.Encloses registry forest table forest :=
  ⟨.refl _ _ _, fun _ new inside => absurd inside (Nat.not_lt_of_le new)⟩

theorem trans {last : NodeTable} {forest'' : List Tree}
    (one : table.Encloses registry forest later forest')
    (two : later.Encloses registry forest' last forest'') :
    table.Encloses registry forest last forest'' := by
  refine ⟨one.extends_.trans two.extends_, ?_⟩
  intro id new inside
  by_cases early : id < later.size
  · obtain ⟨tree, part, found⟩ := one.below id new early
    obtain ⟨_, grows, builds⟩ := two.extends_
    exact ⟨tree, builds.subtreesList_subset part, tree?_mono grows found⟩
  · exact two.below id (Nat.le_of_not_lt early) inside

/-- A new node over a whole forest. -/
theorem push (table : NodeTable) (registry : Registry) (nodeType : NodeTypeId)
    {children : List NodeId} (nonempty : forest ≠ [])
    (shown : List.Forall₂ (fun child tree => table.tree? registry child = some tree)
      children forest) :
    table.Encloses registry forest (table.push ⟨nodeType, .children children⟩)
      [.branch (registry.name nodeType) forest] := by
  refine ⟨.push _ _ _ nonempty, ?_⟩
  intro id new inside
  rw [(Grows.push _ _).size_eq, List.length_singleton] at inside
  obtain rfl : id = table.size := by omega
  exact ⟨_, by simp [subtreesList, subtrees], tree?_push_branch nodeType shown⟩

theorem splice {tree : Tree} {span : SymbolPattern.Span} (ordered : span.start ≤ span.stop)
    (encloses : table.Encloses registry (span.slice forest) later [tree]) :
    table.Encloses registry forest later (span.splice tree forest) := by
  refine ⟨encloses.extends_.splice ordered, ?_⟩
  intro id new inside
  obtain ⟨subtree, part, found⟩ := encloses.below id new inside
  rw [subtreesList, subtreesList, List.append_nil] at part
  refine ⟨subtree, subtrees_subset_subtreesList ?_ part, found⟩
  simp [SymbolPattern.Span.splice]

end Encloses

end NodeTable

namespace NodeTable.ShowsAll

open SymbolPattern

variable {table : NodeTable} {registry : Registry} {symbols : List Symbol} {forest : List Tree}

theorem ne_nil (shown : table.ShowsAll registry symbols forest) : symbols ≠ [] ↔ forest ≠ [] := by
  cases shown with
  | nil => simp
  | cons => simp

theorem extend {later : NodeTable} {before after : List Tree}
    (shown : table.ShowsAll registry symbols forest)
    (extends_ : table.Extends registry before later after) :
    later.ShowsAll registry symbols forest := by
  obtain ⟨_, grows, _⟩ := extends_
  exact shown.mono grows

theorem slice (shown : table.ShowsAll registry symbols forest) (span : Span) :
    table.ShowsAll registry (span.slice symbols) (span.slice forest) :=
  List.forall₂_take _ (List.forall₂_drop _ shown)

theorem splice (shown : table.ShowsAll registry symbols forest) (span : Span) {symbol : Symbol}
    {tree : Tree} (shows_ : table.Shows registry symbol tree) :
    table.ShowsAll registry (span.splice symbol symbols) (span.splice tree forest) :=
  List.rel_append (List.forall₂_take _ shown) (.cons shows_ (List.forall₂_drop _ shown))

/-- Where every node is recognized, so is every symbol. -/
theorem contains_unrecognized (shown : table.ShowsAll registry symbols forest)
    (recognized : ∀ {id : NodeId} {node : Node}, table.get? id = some node →
      node.nodeType ≠ unrecognized) :
    (symbols.map (·.nodeType)).toArray.contains unrecognized = false := by
  apply Bool.eq_false_iff.mpr
  intro present
  rw [Array.contains_iff_mem, List.mem_toArray] at present
  obtain ⟨symbol, member, unknown⟩ := List.mem_map.mp present
  obtain ⟨tree, _, shows_⟩ := exists_of_forall₂ shown member
  obtain ⟨node, got, typed⟩ := Option.map_eq_some_iff.mp shows_.typed
  exact recognized got (typed.trans unknown)

end NodeTable.ShowsAll

namespace ReductionContext

open NodeTable

variable {context : ReductionContext}

/-- Comparing with the expected tree makes no node. -/
@[simp]
theorem judge_nodes (candidate : Candidate) (parser : String) (group : Nat) (node : NodeId)
    (state : ReductionState) :
    (context.judge candidate parser group node state).nodes = state.nodes := by
  have verdict := context.judge_verdict candidate parser group node state
  generalize context.judge candidate parser group node state = after at verdict
  cases verdict with
  | _ => rfl

/-- Comparing with the expected tree does not stop reducing by itself. -/
@[simp]
theorem judge_halted (candidate : Candidate) (parser : String) (group : Nat) (node : NodeId)
    (state : ReductionState) :
    (context.judge candidate parser group node state).halted = state.halted := by
  have verdict := context.judge_verdict candidate parser group node state
  generalize context.judge candidate parser group node state = after at verdict
  cases verdict with
  | _ => rfl

/-- The node for the rest of a sequence has all of its trees below it. -/
theorem wrap_shows {parser : String} {symbols : List Symbol} {forest : List Tree}
    {state final : ReductionState} {root : NodeId}
    (shown : state.nodes.ShowsAll context.grammar.registry symbols forest)
    (nonempty : symbols ≠ []) (wrapped : context.wrap parser symbols state = .ok root final) :
    ∃ tree, state.nodes.Encloses context.grammar.registry forest final.nodes [tree] ∧
      final.nodes.tree? context.grammar.registry root = some tree := by
  by_cases single : symbols.length = 1
  · obtain ⟨symbol, rfl⟩ := List.length_eq_one_iff.mp single
    rw [wrap_single] at wrapped
    cases wrapped
    obtain ⟨tree, _, shows_, none_, rfl⟩ := List.forall₂_cons_left_iff.mp shown
    rw [List.forall₂_nil_left_iff] at none_
    subst none_
    exact ⟨tree, .refl _ _ _, shows_.tree?_eq⟩
  · rw [wrap_several context single] at wrapped
    split at wrapped
    · cases wrapped
    · cases wrapped
      exact ⟨_, .push _ _ unrecognized (shown.ne_nil.mp nonempty) shown.nodes,
        tree?_push_branch unrecognized shown.nodes⟩

/-- The trees of the symbols grow by building over neighbours, one branch for every node, and no
node is lost. -/
theorem Reaches.encloses {parser : String} {symbols rest : List Symbol} {forest : List Tree}
    {state after : ReductionState} (reaches : context.Reaches parser symbols state rest after)
    (shown : state.nodes.ShowsAll context.grammar.registry symbols forest) :
    ∃ grown, state.nodes.Encloses context.grammar.registry forest after.nodes grown ∧
      after.nodes.ShowsAll context.grammar.registry rest grown := by
  induction reaches generalizing forest with
  | refl => exact ⟨forest, .refl _ _ _, shown⟩
  | halt _ _ induction => exact induction shown
  | @direct _ _ current _ middle _ _ _ _ candidate _ _ _ _ found _ induction =>
      obtain ⟨grown, before, shown⟩ := induction shown
      obtain ⟨_, _, filled, inside⟩ := candidate?_eq_some found
      have captured := shown.slice candidate.found.capture
      have nonempty := SymbolPattern.Span.slice_ne_nil filled inside
      have one := Encloses.splice (Nat.le_of_lt filled) (Encloses.push middle.nodes
        context.grammar.registry candidate.rule.nodeType (captured.ne_nil.mp nonempty)
        captured.nodes)
      simp only [judge_nodes]
      exact ⟨_, before.trans one,
        (shown.extend one.extends_).splice _ (.push_branch _ captured.nodes)⟩
  | @delegated _ _ _ current rest _ _ after final _ _ _ _ candidate root _ _ _ _ found _ _ wrapped
      induction inside =>
      obtain ⟨grown, before, shown⟩ := induction shown
      obtain ⟨_, _, filled, bounded⟩ := candidate?_eq_some found
      have captured := shown.slice candidate.found.capture
      have nonempty := SymbolPattern.Span.slice_ne_nil filled bounded
      obtain ⟨inner, within, shownRest⟩ := inside captured
      have left :=
        shownRest.ne_nil.mpr (within.extends_.ne_nil (captured.ne_nil.mp nonempty))
      obtain ⟨tree, wraps, below⟩ := wrap_shows shownRest left wrapped
      have one := Encloses.splice (Nat.le_of_lt filled) ((within.trans wraps).trans
        (Encloses.push final.nodes context.grammar.registry candidate.rule.nodeType
          (List.cons_ne_nil _ _) (.cons below .nil)))
      simp only [judge_nodes]
      exact ⟨_, before.trans one,
        (shown.extend one.extends_).splice _ (.push_branch _ (.cons below .nil))⟩

/-- The trees of the symbols grow by building over neighbours, one branch for every node. -/
theorem Reaches.extends_ {parser : String} {symbols rest : List Symbol} {forest : List Tree}
    {state after : ReductionState} (reaches : context.Reaches parser symbols state rest after)
    (shown : state.nodes.ShowsAll context.grammar.registry symbols forest) :
    ∃ grown, state.nodes.Extends context.grammar.registry forest after.nodes grown ∧
      after.nodes.ShowsAll context.grammar.registry rest grown := by
  obtain ⟨grown, encloses, shown⟩ := reaches.encloses shown
  exact ⟨grown, encloses.extends_, shown⟩

/-- The tree of a reduction is built over the trees of the symbols. -/
theorem Reduces.encloses {parser : String} {symbols : List Symbol} {forest : List Tree}
    {state final : ReductionState} {root : NodeId}
    (reduces : context.Reduces parser symbols state root final)
    (shown : state.nodes.ShowsAll context.grammar.registry symbols forest) :
    ∃ tree, state.nodes.Encloses context.grammar.registry forest final.nodes [tree] ∧
      final.nodes.tree? context.grammar.registry root = some tree := by
  obtain ⟨nonempty, rest, after, reaches, wrapped⟩ := reduces
  obtain ⟨grown, one, shownRest⟩ := reaches.encloses shown
  have left := shownRest.ne_nil.mpr (one.extends_.ne_nil (shown.ne_nil.mp nonempty))
  obtain ⟨tree, two, below⟩ := wrap_shows shownRest left wrapped
  exact ⟨tree, one.trans two, below⟩

/-- What a report says about the state at the end. -/
structure Reports (report : ParseReport) (final : ReductionState) : Prop where
  divergence : report.divergence = final.divergence
  validSteps : report.validSteps = final.validSteps
  halted : report.halted = final.halted
  nodeCount : report.nodeCount = final.nodes.size

/-- A report tells where reducing has led to and how it has ended. -/
theorem Reports.eq {report : ParseReport} {final : ReductionState}
    (reports : Reports report final) :
    report = ⟨report.root, report.tree, final.divergence, final.validSteps, final.halted,
      final.nodes.size⟩ := by
  rw [← reports.divergence, ← reports.validSteps, ← reports.halted, ← reports.nodeCount]

theorem parse_report {parser : String} {symbols : List Symbol} {state final : ReductionState}
    {report : ParseReport} (parsed : context.parse parser symbols state = .ok report final) :
    Reports report final := by
  rw [parse_eq, Reduction.followed_eq_ok_iff] at parsed
  obtain ⟨root, after, _, reported⟩ := parsed
  split at reported
  · cases reported
    exact ⟨rfl, rfl, rfl, rfl⟩
  · cases reported

/-- The reported tree is the one below the reported node. -/
theorem parse_tree {parser : String} {symbols : List Symbol} {state final : ReductionState}
    {report : ParseReport} (parsed : context.parse parser symbols state = .ok report final) :
    final.nodes.tree? context.grammar.registry report.root = some report.tree := by
  rw [parse_eq, Reduction.followed_eq_ok_iff] at parsed
  obtain ⟨root, after, _, reported⟩ := parsed
  split at reported
  · rename_i found
    cases reported
    exact found
  · cases reported

/-- The reported tree is built over the trees of the symbols, and every new node is part of it. -/
theorem parse_encloses (context : ReductionContext) {parser : String} {symbols : List Symbol}
    {forest : List Tree} {state final : ReductionState} {report : ParseReport}
    (shown : state.nodes.ShowsAll context.grammar.registry symbols forest)
    (parsed : context.parse parser symbols state = .ok report final) :
    state.nodes.Encloses context.grammar.registry forest final.nodes [report.tree] := by
  rw [parse_eq, Reduction.followed_eq_ok_iff] at parsed
  obtain ⟨root, after, reduced, reported⟩ := parsed
  obtain ⟨tree, encloses, below⟩ :=
    (reduceWith_sound _ parser symbols state root after reduced).encloses shown
  rw [below] at reported
  cases reported
  exact encloses

/-- The reported tree is built over the trees of the symbols. -/
theorem parse_extends (context : ReductionContext) {parser : String} {symbols : List Symbol}
    {forest : List Tree} {state final : ReductionState} {report : ParseReport}
    (shown : state.nodes.ShowsAll context.grammar.registry symbols forest)
    (parsed : context.parse parser symbols state = .ok report final) :
    state.nodes.Extends context.grammar.registry forest final.nodes [report.tree] :=
  (context.parse_encloses shown parsed).extends_

end ReductionContext

end RowGrammar

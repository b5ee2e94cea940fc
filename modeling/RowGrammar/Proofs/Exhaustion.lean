import Mathlib.Data.List.Range
import RowGrammar.Proofs.Reproduction

/-!
# Nodes of a parse

A reduction puts every node it makes over nodes that nothing is over yet, and leaves out none.  So
the nodes below the symbols of a sequence are, at any time, those that were below them before and
all the nodes made since, each once.  In the end one node is over all others.
-/

namespace RowGrammar

namespace NodeTable

/-- The numbers of a node and of everything below it, each node before those below it; `fuel`
bounds the height. -/
def belowWithin (table : NodeTable) : Nat → NodeId → List NodeId
  | 0, _ => []
  | fuel + 1, id =>
      id ::
        match table.get? id with
        | some ⟨_, .children ids⟩ => ids.flatMap (table.belowWithin fuel)
        | _ => []

def below (table : NodeTable) (id : NodeId) : List NodeId :=
  table.belowWithin (id + 1) id

/-- What is below several nodes. -/
def belowAll (table : NodeTable) (roots : List NodeId) : List NodeId :=
  roots.flatMap table.below

/-- Children are made before the nodes over them. -/
def Ordered (table : NodeTable) : Prop :=
  ∀ id nodeType children, table.get? id = some ⟨nodeType, .children children⟩ →
    ∀ child ∈ children, child < id

/-- What is below a node stays the same while the table grows. -/
theorem belowWithin_mono {table later : NodeTable} {added : List Node} {registry : Registry}
    (grows : table.Grows added later) {fuel more : Nat} {id : NodeId} {tree : Tree}
    (found : table.treeWithin registry fuel id = some tree) (enough : fuel ≤ more) :
    later.belowWithin more id = table.belowWithin fuel id := by
  induction fuel generalizing more id tree with
  | zero => simp [treeWithin] at found
  | succ fuel induction =>
      cases more with
      | zero => omega
      | succ more =>
          simp only [treeWithin, Option.bind_eq_bind, Option.bind_eq_some_iff] at found
          obtain ⟨⟨nodeType, payload⟩, present, built⟩ := found
          simp only [belowWithin, present, grows.get? present]
          cases payload with
          | text text => rfl
          | children ids =>
              simp only [Option.bind_eq_some_iff, mapM_eq_some_iff] at built
              obtain ⟨trees, inside, _⟩ := built
              congr 1
              apply List.flatMap_congr
              intro child member
              obtain ⟨tree, _, found⟩ := exists_of_forall₂ inside member
              exact induction found (by omega)

theorem below_mono {table later : NodeTable} {added : List Node} {registry : Registry}
    (grows : table.Grows added later) {id : NodeId} {tree : Tree}
    (found : table.tree? registry id = some tree) : later.below id = table.below id :=
  belowWithin_mono grows found (Nat.le_refl _)

theorem belowAll_mono {table later : NodeTable} {added : List Node} {registry : Registry}
    (grows : table.Grows added later) {roots : List NodeId} {trees : List Tree}
    (found : List.Forall₂ (fun root tree => table.tree? registry root = some tree) roots trees) :
    later.belowAll roots = table.belowAll roots := by
  apply List.flatMap_congr
  intro root member
  obtain ⟨tree, _, has⟩ := exists_of_forall₂ found member
  exact below_mono grows has

theorem below_push_branch {table : NodeTable} {registry : Registry} {children : List NodeId}
    {trees : List Tree} (nodeType : NodeTypeId)
    (found : List.Forall₂ (fun child tree => table.tree? registry child = some tree)
      children trees) :
    (table.push ⟨nodeType, .children children⟩).below table.size =
      table.size :: table.belowAll children := by
  simp only [below, belowWithin, belowAll, get?_push_size]
  congr 1
  apply List.flatMap_congr
  intro child member
  obtain ⟨tree, _, has⟩ := exists_of_forall₂ found member
  exact belowWithin_mono (.push _ _) has (lt_size_of_tree? has)

namespace Ordered

variable {table : NodeTable} (ordered : table.Ordered)

include ordered

theorem push {nodeType : NodeTypeId} {children : List NodeId}
    (made : ∀ child ∈ children, child < table.size) :
    (table.push ⟨nodeType, .children children⟩).Ordered := by
  intro id otherType others got
  rcases get?_push_eq_some got with old | ⟨rfl, new⟩
  · exact ordered id otherType others old
  · cases new
    exact made

theorem le_of_mem_belowWithin {fuel : Nat} {id other : NodeId}
    (member : other ∈ table.belowWithin fuel id) : other ≤ id := by
  induction fuel generalizing id with
  | zero => cases member
  | succ fuel induction =>
      rw [belowWithin, List.mem_cons] at member
      rcases member with rfl | inside
      · exact Nat.le_refl _
      · split at inside
        · rename_i children got
          obtain ⟨child, listed, deeper⟩ := List.mem_flatMap.mp inside
          exact Nat.le_of_lt (Nat.lt_of_le_of_lt (induction deeper)
            (ordered id _ children got child listed))
        · cases inside

/-- The height of a tree is bounded by the number of its node. -/
theorem tree?_of_treeWithin {registry : Registry} {fuel : Nat} {id : NodeId} {tree : Tree}
    (found : table.treeWithin registry fuel id = some tree) :
    table.tree? registry id = some tree := by
  induction fuel generalizing id tree with
  | zero => simp [treeWithin] at found
  | succ fuel induction =>
      simp only [tree?, treeWithin, Option.bind_eq_bind, Option.bind_eq_some_iff] at found ⊢
      obtain ⟨⟨nodeType, payload⟩, present, built⟩ := found
      refine ⟨⟨nodeType, payload⟩, present, ?_⟩
      cases payload with
      | text text => exact built
      | children ids =>
          simp only [Option.bind_eq_some_iff, mapM_eq_some_iff] at built ⊢
          obtain ⟨trees, inside, same⟩ := built
          refine ⟨trees, ?_, same⟩
          have smaller : ∀ child ∈ ids, child < id := ordered id nodeType ids present
          exact ((List.forall₂_and_left _ _).mpr ⟨smaller, inside⟩).imp fun child tree both =>
            treeWithin_mono (.refl _) (induction both.2) both.1

/-- The nodes below a node are those of the subtrees, in the same order. -/
theorem belowWithin_subtrees {registry : Registry} {fuel : Nat} {id : NodeId} {tree : Tree}
    (found : table.treeWithin registry fuel id = some tree) :
    List.Forall₂ (fun id subtree => table.tree? registry id = some subtree)
      (table.belowWithin fuel id) tree.subtrees := by
  induction fuel generalizing id tree with
  | zero => simp [treeWithin] at found
  | succ fuel induction =>
      have whole := ordered.tree?_of_treeWithin found
      simp only [treeWithin, Option.bind_eq_bind, Option.bind_eq_some_iff] at found
      obtain ⟨⟨nodeType, payload⟩, present, built⟩ := found
      simp only [belowWithin, present]
      cases payload with
      | text text =>
          cases built
          exact .cons whole .nil
      | children ids =>
          simp only [Option.bind_eq_some_iff, mapM_eq_some_iff] at built
          obtain ⟨trees, inside, same⟩ := built
          cases same
          refine .cons whole ?_
          clear present whole
          induction inside with
          | nil => exact .nil
          | cons first _ others => exact List.rel_append (induction first) others

end Ordered

/-- A table grows so that what is below some nodes of the later one is what was below some nodes of
the earlier one and every new node, each once. -/
structure Gathers (table : NodeTable) (roots : List NodeId) (later : NodeTable)
    (roots' : List NodeId) : Prop where
  size_le : table.size ≤ later.size
  ordered : table.Ordered → later.Ordered
  perm : (later.belowAll roots').Perm
    (table.belowAll roots ++ List.range' table.size (later.size - table.size))

namespace Gathers

variable {table later : NodeTable} {registry : Registry} {roots roots' : List NodeId}
  {trees : List Tree}

theorem refl (table : NodeTable) (roots : List NodeId) : table.Gathers roots table roots := by
  refine ⟨Nat.le_refl _, id, ?_⟩
  simp

theorem trans {last : NodeTable} {roots'' : List NodeId}
    (one : table.Gathers roots later roots') (two : later.Gathers roots' last roots'') :
    table.Gathers roots last roots'' := by
  refine ⟨one.size_le.trans two.size_le, fun ordered => two.ordered (one.ordered ordered), ?_⟩
  have ranges : List.range' table.size (later.size - table.size) ++
      List.range' later.size (last.size - later.size) =
        List.range' table.size (last.size - table.size) := by
    have first := one.size_le
    have second := two.size_le
    have next : later.size = table.size + (later.size - table.size) := by omega
    have total : last.size - table.size = later.size - table.size + (last.size - later.size) := by
      omega
    rw [total, ← List.range'_append_1, ← next]
  rw [← ranges, ← List.append_assoc]
  exact two.perm.trans (one.perm.append_right _)

theorem push (nodeType : NodeTypeId)
    (found : List.Forall₂ (fun root tree => table.tree? registry root = some tree) roots trees) :
    table.Gathers roots (table.push ⟨nodeType, .children roots⟩) [table.size] := by
  have size : (table.push ⟨nodeType, .children roots⟩).size = table.size + 1 :=
    (Grows.push _ _).size_eq
  refine ⟨by omega, ?_, ?_⟩
  · intro ordered
    refine ordered.push ?_
    intro root member
    obtain ⟨tree, _, has⟩ := exists_of_forall₂ found member
    exact lt_size_of_tree? has
  · rw [size, Nat.add_sub_cancel_left, List.range'_one]
    have whole : (table.push ⟨nodeType, .children roots⟩).belowAll [table.size] =
        [table.size] ++ table.belowAll roots := by
      rw [belowAll, List.flatMap_singleton, below_push_branch nodeType found]
      rfl
    rw [whole]
    exact List.perm_append_comm

/-- What is left and right of a span stays as it is. -/
theorem splice {added : List Node} (grows : table.Grows added later)
    (found : List.Forall₂ (fun root tree => table.tree? registry root = some tree) roots trees)
    {span : SymbolPattern.Span} (ordered : span.start ≤ span.stop) {root : NodeId}
    (inside : table.Gathers (span.slice roots) later [root]) :
    table.Gathers roots later (span.splice root roots) := by
  refine ⟨inside.size_le, inside.ordered, ?_⟩
  have left : later.belowAll (roots.take span.start) = table.belowAll (roots.take span.start) :=
    belowAll_mono grows (List.forall₂_take _ found)
  have right : later.belowAll (roots.drop span.stop) = table.belowAll (roots.drop span.stop) :=
    belowAll_mono grows (List.forall₂_drop _ found)
  have parts : table.belowAll roots = table.belowAll (roots.take span.start) ++
      (table.belowAll (span.slice roots) ++ table.belowAll (roots.drop span.stop)) := by
    conv_lhs => rw [← SymbolPattern.Span.take_slice_drop ordered roots]
    simp [belowAll]
  have spliced : later.belowAll (span.splice root roots) =
      table.belowAll (roots.take span.start) ++
        (later.belowAll [root] ++ table.belowAll (roots.drop span.stop)) := by
    rw [← left, ← right]
    simp [belowAll, SymbolPattern.Span.splice]
  rw [spliced, parts, List.append_assoc]
  refine List.Perm.append_left _ ((inside.perm.append_right _).trans ?_)
  rw [List.append_assoc, List.append_assoc]
  exact List.Perm.append_left _ List.perm_append_comm

/-- Where all earlier nodes were below some nodes, all later ones are below the one over these. -/
theorem perm_range {root : NodeId} (gathers : table.Gathers roots later [root])
    (all : table.belowAll roots = List.range table.size) :
    (later.below root).Perm (List.range later.size) := by
  have total : later.size = table.size + (later.size - table.size) := by
    have grown := gathers.size_le
    omega
  have ranges : List.range later.size =
      List.range table.size ++ List.range' table.size (later.size - table.size) := by
    rw [List.range_eq_range', List.range_eq_range', total, ← List.range'_append_1]
    simp
  rw [ranges, ← all]
  simpa [belowAll] using gathers.perm

end Gathers

end NodeTable

namespace ReductionContext

open NodeTable

variable {context : ReductionContext}

theorem wrap_gathers {parser : String} {symbols : List Symbol} {forest : List Tree}
    {state final : ReductionState} {root : NodeId}
    (shown : state.nodes.ShowsAll context.grammar.registry symbols forest)
    (wrapped : context.wrap parser symbols state = .ok root final) :
    state.nodes.Gathers (symbols.map (·.node)) final.nodes [root] := by
  by_cases single : symbols.length = 1
  · obtain ⟨symbol, rfl⟩ := List.length_eq_one_iff.mp single
    rw [wrap_single] at wrapped
    cases wrapped
    exact .refl _ _
  · rw [wrap_several context single] at wrapped
    split at wrapped
    · cases wrapped
    · cases wrapped
      exact .push _ shown.nodes

/-- No event leaves out a node or puts two nodes over one. -/
theorem Reaches.gathers {parser : String} {symbols rest : List Symbol} {forest : List Tree}
    {state after : ReductionState} (reaches : context.Reaches parser symbols state rest after)
    (shown : state.nodes.ShowsAll context.grammar.registry symbols forest) :
    state.nodes.Gathers (symbols.map (·.node)) after.nodes (rest.map (·.node)) := by
  induction reaches generalizing forest with
  | refl => exact .refl _ _
  | halt _ _ induction => exact induction shown
  | direct before _ _ _ found _ induction =>
      obtain ⟨grown, _, now⟩ := before.encloses shown
      obtain ⟨_, _, filled, _⟩ := candidate?_eq_some found
      rw [judge_nodes, ← SymbolPattern.Span.splice_map]
      refine (induction shown).trans (.splice (.push _ _) now.nodes filled.le ?_)
      rw [SymbolPattern.Span.slice_map]
      exact .push _ (now.slice _).nodes
  | @delegated _ _ _ _ rest _ _ after _ _ _ _ _ candidate _ before _ _ _ found _ inner wrapped
      induction inside =>
      obtain ⟨grown, _, now⟩ := before.encloses shown
      obtain ⟨_, _, filled, bounded⟩ := candidate?_eq_some found
      -- What is captured becomes one node in a reduction of its own, and then that node gets one
      -- over it.
      have captured := now.slice candidate.found.capture
      obtain ⟨_, _, left⟩ := inner.encloses captured
      obtain ⟨tree, ⟨⟨_, grows, _⟩, _⟩, has⟩ := Reduces.encloses
        ⟨SymbolPattern.Span.slice_ne_nil filled bounded, rest, after, inner, wrapped⟩ captured
      rw [judge_nodes, ← SymbolPattern.Span.splice_map]
      refine (induction shown).trans (.splice (grows.trans (.push _ _)) now.nodes filled.le ?_)
      rw [SymbolPattern.Span.slice_map]
      exact ((inside captured).trans (wrap_gathers left wrapped)).trans (.push _ (.cons has .nil))

/-- The node of a parse is over everything below the symbols and all that is made. -/
theorem parse_gathers {parser : String} {symbols : List Symbol} {forest : List Tree}
    {state final : ReductionState} {report : ParseReport}
    (shown : state.nodes.ShowsAll context.grammar.registry symbols forest)
    (parsed : context.parse parser symbols state = .ok report final) :
    state.nodes.Gathers (symbols.map (·.node)) final.nodes [report.root] := by
  rw [parse_eq, Reduction.followed_eq_ok_iff] at parsed
  obtain ⟨root, after, reduced, reported⟩ := parsed
  obtain ⟨_, rest, last, reaches, wrapped⟩ := reduceWith_sound _ _ _ _ _ _ reduced
  obtain ⟨_, _, left⟩ := reaches.encloses shown
  split at reported
  · cases reported
    exact (reaches.gathers shown).trans (wrap_gathers left wrapped)
  · cases reported

end ReductionContext

namespace Session

open NodeTable

theorem belowAll_tokens {session : Session} {tokens : List Token}
    (held : ∀ token ∈ tokens, session.Holds token) :
    session.nodes.belowAll ((tokens.filterMap Token.symbol?).map (·.node)) =
      tokens.filterMap (·.node) := by
  induction tokens with
  | nil => rfl
  | cons token tokens induction =>
      have others := induction fun other member => held other (List.mem_cons_of_mem _ member)
      cases has : token.node with
      | none => simpa [Token.symbol?, has] using others
      | some node =>
          have leaf := held token List.mem_cons_self node has
          have alone : session.nodes.below node = [node] := by simp [below, belowWithin, leaf]
          simpa [Token.symbol?, has, belowAll, alone] using others

end Session

namespace Engine

open NodeTable

/-- The nodes of a parse are those of its tree: the root is the last node, children come before the
nodes over them, and every node is below the root exactly once, where the subtrees are. -/
theorem parse_exhausts {engine : Engine} {text : String} {options : ParseOptions}
    {report : ParseReport} (parsed : engine.parse text options = .ok report) :
    ∃ tokens session after,
      engine.tokenizeIn .start text ⟨options.parser, options.strict⟩ = (.ok tokens, session) ∧
      engine.parseIn session tokens options = (.ok report, after) ∧
      after.nodes.size = report.nodeCount ∧
      report.root + 1 = report.nodeCount ∧
      (∀ id nodeType children, after.nodes.get? id = some ⟨nodeType, .children children⟩ →
        ∀ child ∈ children, child < id) ∧
      (after.nodes.below report.root).Perm (List.range report.nodeCount) ∧
      List.Forall₂ (fun id subtree => after.nodes.tree? engine.grammar.registry id = some subtree)
        (after.nodes.below report.root) report.tree.subtrees ∧
      report.tree.size = report.nodeCount := by
  obtain ⟨tokens, session, final, tokenized, reduced⟩ := parse_eq_ok_iff.mp parsed
  obtain ⟨_, held⟩ := nodes_of_tokenized tokenized
  have gathers := ReductionContext.parse_gathers (Session.showsAll_tokens held _) reduced
  have found := ReductionContext.parse_tree reduced
  obtain ⟨sizes, _⟩ := parse_nodes tokenized rfl reduced
  have count := (ReductionContext.parse_report reduced).nodeCount
  have leaves : session.nodes.Ordered := by
    intro id nodeType children got
    obtain ⟨token, _, _, leaf⟩ := exists_token_of_tokenized tokenized got
    cases leaf
  have first : session.nodes.belowAll ((tokens.filterMap Token.symbol?).map (·.node)) =
      List.range session.nodes.size := by
    obtain ⟨_, added⟩ := tokenizeIn_eq_ok_iff.mp tokenized
    obtain ⟨_, _, numbers, size⟩ := Session.addPieces_tokens _ _ _ _ added
    have empty : Session.start.nodes.size = 0 := rfl
    rw [empty, Nat.zero_add] at size
    rw [Session.belowAll_tokens held, numbers, empty, List.range_eq_range', size]
  have ordered := gathers.ordered leaves
  have perm : (final.nodes.below report.root).Perm (List.range report.nodeCount) := by
    rw [count]
    exact gathers.perm_range first
  refine ⟨tokens, session, ⟨final.nodes⟩, tokenized, ?_, count.symm, ?_, ordered, perm,
    ordered.belowWithin_subtrees found, (count.trans sizes).symm⟩
  · rw [parseIn_eq, reduced]
  · -- The last node is below the root, so it cannot come after it.
    have inside : report.root < report.nodeCount := count ▸ lt_size_of_tree? found
    have last : report.nodeCount - 1 ∈ final.nodes.below report.root :=
      perm.mem_iff.mpr (List.mem_range.mpr (Nat.sub_one_lt (Nat.ne_zero_of_lt inside)))
    exact Nat.le_antisymm inside (Nat.le_add_of_sub_le (ordered.le_of_mem_belowWithin last))

/-- The nodes made by both parsers of a grammar end up in one tree. -/
theorem parse_nested :
    ∃ report, nestedEngine.parse "aa" {} = .ok report ∧ report.root + 1 = report.nodeCount ∧
      report.tree.size = 7 := by
  have parsed : nestedEngine.parse "aa" {} = .ok _ := eq_ok_get (by decide +kernel)
  obtain ⟨_, _, _, _, _, _, last, _⟩ := parse_exhausts parsed
  exact ⟨_, parsed, last, by decide +kernel⟩

end Engine

end RowGrammar

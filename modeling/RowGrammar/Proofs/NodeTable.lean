import RowGrammar.NodeTable
import RowGrammar.Proofs.Forest
import RowGrammar.Proofs.Traversal

/-!
# Trees below nodes

A node table only grows, and the tree below a node stays the same while it does.  A new branch has
the trees of its children below it.
-/

namespace RowGrammar.NodeTable

/-- A table with further nodes at its end. -/
def Grows (table : NodeTable) (added : List Node) (later : NodeTable) : Prop :=
  later.nodes.toList = table.nodes.toList ++ added

namespace Grows

theorem refl (table : NodeTable) : table.Grows [] table := by
  simp [Grows]

theorem trans {table middle later : NodeTable} {added further : List Node}
    (one : table.Grows added middle) (two : middle.Grows further later) :
    table.Grows (added ++ further) later := by
  unfold Grows at *
  rw [two, one, List.append_assoc]

theorem push (table : NodeTable) (node : Node) : table.Grows [node] (table.push node) := by
  simp [Grows, NodeTable.push]

theorem size_eq {table later : NodeTable} {added : List Node} (grows : table.Grows added later) :
    later.size = table.size + added.length := by
  have lengths := congrArg List.length grows
  simpa [NodeTable.size] using lengths

theorem get? {table later : NodeTable} {added : List Node} (grows : table.Grows added later)
    {id : NodeId} {node : Node} (found : table.get? id = some node) :
    later.get? id = some node := by
  unfold Grows at grows
  simp only [NodeTable.get?, ← Array.getElem?_toList] at found ⊢
  rw [grows, List.getElem?_append_left]
  · exact found
  · exact (List.getElem?_eq_some_iff.mp found).1

end Grows

theorem get?_push_size (table : NodeTable) (node : Node) :
    (table.push node).get? table.size = some node := by
  simp [NodeTable.get?, NodeTable.push, NodeTable.size]

theorem lt_size_of_get? {table : NodeTable} {id : NodeId} {node : Node}
    (got : table.get? id = some node) : id < table.size :=
  (Array.getElem?_eq_some_iff.mp got).1

/-- A node is an earlier one or the new one. -/
theorem get?_push_eq_some {table : NodeTable} {node other : Node} {id : NodeId}
    (got : (table.push node).get? id = some other) :
    table.get? id = some other ∨ id = table.size ∧ other = node := by
  simp only [NodeTable.get?, NodeTable.push, Array.getElem?_push] at got
  split at got
  · rename_i new
    cases got
    exact .inr ⟨new, rfl⟩
  · exact .inl got

/-- A tree found within some height is found within a greater one, also in a later table. -/
theorem treeWithin_mono {table later : NodeTable} {added : List Node} {registry : Registry}
    (grows : table.Grows added later) {fuel more : Nat} {id : NodeId} {tree : Tree}
    (found : table.treeWithin registry fuel id = some tree) (enough : fuel ≤ more) :
    later.treeWithin registry more id = some tree := by
  induction fuel generalizing more id tree with
  | zero => simp [treeWithin] at found
  | succ fuel induction =>
      cases more with
      | zero => omega
      | succ more =>
          simp only [treeWithin, Option.bind_eq_bind, Option.bind_eq_some_iff] at found ⊢
          obtain ⟨node, present, built⟩ := found
          refine ⟨node, grows.get? present, ?_⟩
          cases payload : node.payload with
          | text text => simpa [payload] using built
          | children ids =>
              simp only [payload, Option.bind_eq_some_iff] at built ⊢
              obtain ⟨trees, below, same⟩ := built
              refine ⟨trees, ?_, same⟩
              rw [mapM_eq_some_iff] at below ⊢
              exact below.imp fun child tree found => induction found (by omega)

theorem tree?_mono {table later : NodeTable} {added : List Node} {registry : Registry}
    (grows : table.Grows added later) {id : NodeId} {tree : Tree}
    (found : table.tree? registry id = some tree) : later.tree? registry id = some tree :=
  treeWithin_mono grows found (Nat.le_refl _)

theorem lt_size_of_tree? {table : NodeTable} {registry : Registry} {id : NodeId} {tree : Tree}
    (found : table.tree? registry id = some tree) : id < table.size := by
  simp only [tree?, treeWithin, Option.bind_eq_bind, Option.bind_eq_some_iff] at found
  obtain ⟨node, present, _⟩ := found
  exact lt_size_of_get? present

/-- Every subtree below a node has a node of its type. -/
theorem exists_node_of_subtree {table : NodeTable} {registry : Registry} {fuel : Nat} {id : NodeId}
    {tree subtree : Tree} (found : table.treeWithin registry fuel id = some tree)
    (part : subtree ∈ tree.subtrees) :
    ∃ (other : NodeId) (node : Node), table.get? other = some node ∧
      subtree.nodeType = registry.name node.nodeType := by
  induction fuel generalizing id tree with
  | zero => simp [treeWithin] at found
  | succ fuel induction =>
      simp only [treeWithin, Option.bind_eq_bind, Option.bind_eq_some_iff] at found
      obtain ⟨⟨nodeType, payload⟩, present, built⟩ := found
      cases payload with
      | text text =>
          cases built
          rw [Tree.subtrees, List.mem_singleton] at part
          subst part
          exact ⟨id, _, present, rfl⟩
      | children ids =>
          simp only [Option.bind_eq_some_iff, mapM_eq_some_iff] at built
          obtain ⟨trees, inside, same⟩ := built
          cases same
          rw [Tree.subtrees, List.mem_cons] at part
          rcases part with rfl | deeper
          · exact ⟨id, _, present, rfl⟩
          · obtain ⟨child, member, below⟩ := Tree.exists_of_mem_subtreesList deeper
            obtain ⟨_, _, found⟩ := exists_of_forall₂ inside.flip member
            exact induction found below

/-- The tree below a new branch. -/
theorem tree?_push_branch {table : NodeTable} {registry : Registry} {children : List NodeId}
    {trees : List Tree} (nodeType : NodeTypeId)
    (below : List.Forall₂ (fun child tree => table.tree? registry child = some tree)
      children trees) :
    (table.push ⟨nodeType, .children children⟩).tree? registry table.size =
      some (.branch (registry.name nodeType) trees) := by
  have grows := Grows.push table ⟨nodeType, .children children⟩
  have inside : children.mapM ((table.push ⟨nodeType, .children children⟩).treeWithin registry
      table.size) = some trees := by
    rw [mapM_eq_some_iff]
    exact below.imp fun child tree found =>
      treeWithin_mono grows found (lt_size_of_tree? found)
  simp [tree?, treeWithin, get?_push_size, inside]

/-- A symbol stands for a node of its type, with a tree below. -/
structure Shows (table : NodeTable) (registry : Registry) (symbol : Symbol) (tree : Tree) :
    Prop where
  typed : (table.get? symbol.node).map (·.nodeType) = some symbol.nodeType
  tree?_eq : table.tree? registry symbol.node = some tree

namespace Shows

theorem mono {table later : NodeTable} {added : List Node} {registry : Registry}
    {symbol : Symbol} {tree : Tree} (shows_ : table.Shows registry symbol tree)
    (grows : table.Grows added later) : later.Shows registry symbol tree := by
  refine ⟨?_, tree?_mono grows shows_.tree?_eq⟩
  obtain ⟨node, present, same⟩ := Option.map_eq_some_iff.mp shows_.typed
  simp [grows.get? present, same]

theorem nodeType_eq {table : NodeTable} {registry : Registry} {symbol : Symbol} {tree : Tree}
    (shows_ : table.Shows registry symbol tree) :
    tree.nodeType = registry.name symbol.nodeType := by
  obtain ⟨node, present, same⟩ := Option.map_eq_some_iff.mp shows_.typed
  have built := shows_.tree?_eq
  simp only [tree?, treeWithin, present, Option.bind_eq_bind, Option.bind_some] at built
  cases payload : node.payload with
  | text text =>
      simp only [payload, Option.pure_def, Option.some.injEq] at built
      rw [← built, ← same]
      rfl
  | children ids =>
      simp only [payload, Option.bind_eq_some_iff] at built
      obtain ⟨trees, _, equal⟩ := built
      cases equal
      rw [← same]
      rfl

/-- A new branch over symbols. -/
theorem push_branch {table : NodeTable} {registry : Registry} {children : List NodeId}
    {trees : List Tree} (nodeType : NodeTypeId)
    (below : List.Forall₂ (fun child tree => table.tree? registry child = some tree)
      children trees) :
    (table.push ⟨nodeType, .children children⟩).Shows registry ⟨nodeType, table.size⟩
      (.branch (registry.name nodeType) trees) :=
  ⟨by simp [get?_push_size], tree?_push_branch nodeType below⟩

end Shows

/-- The trees below the nodes of a sequence of symbols. -/
def ShowsAll (table : NodeTable) (registry : Registry) (symbols : List Symbol)
    (forest : List Tree) : Prop :=
  List.Forall₂ (table.Shows registry) symbols forest

namespace ShowsAll

theorem mono {table later : NodeTable} {added : List Node} {registry : Registry}
    {symbols : List Symbol} {forest : List Tree}
    (shown : table.ShowsAll registry symbols forest) (grows : table.Grows added later) :
    later.ShowsAll registry symbols forest :=
  List.Forall₂.imp (fun _ _ shows_ => shows_.mono grows) shown

theorem nodes {table : NodeTable} {registry : Registry} {symbols : List Symbol}
    {forest : List Tree} (shown : table.ShowsAll registry symbols forest) :
    List.Forall₂ (fun child tree => table.tree? registry child = some tree)
      (symbols.map (·.node)) forest := by
  rw [List.forall₂_map_left_iff]
  exact List.Forall₂.imp (fun _ _ shows_ => shows_.tree?_eq) shown

end ShowsAll

end RowGrammar.NodeTable

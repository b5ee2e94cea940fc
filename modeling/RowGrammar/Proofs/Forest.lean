import RowGrammar.Tree.Basic

/-!
# Building over neighbours

Reducing puts one branch after the other over neighbours of a forest.  `Builds` is any number of
such steps together with the types of the new branches.  It keeps the leaves in their order, loses
no subtree and adds one node for every step.
-/

namespace RowGrammar.Tree

@[simp]
theorem leavesList_append (left right : List Tree) :
    leavesList (left ++ right) = leavesList left ++ leavesList right := by
  induction left with
  | nil => simp [leavesList]
  | cons tree trees induction => simp [leavesList, induction]

theorem leavesList_map_leaf {α : Type} (nodeType text : α → String) (items : List α) :
    leavesList (items.map fun item => .leaf (nodeType item) (text item)) =
      items.map fun item => (nodeType item, text item) := by
  induction items with
  | nil => rfl
  | cons item items induction => simp [leavesList, leaves, induction]

@[simp]
theorem sizeList_append (left right : List Tree) :
    sizeList (left ++ right) = sizeList left + sizeList right := by
  induction left with
  | nil => simp [sizeList]
  | cons tree trees induction =>
      simp only [List.cons_append, sizeList, induction]
      omega

@[simp]
theorem subtreesList_append (left right : List Tree) :
    subtreesList (left ++ right) = subtreesList left ++ subtreesList right := by
  induction left with
  | nil => simp [subtreesList]
  | cons tree trees induction => simp [subtreesList, induction]

theorem mem_subtrees_self (tree : Tree) : tree ∈ tree.subtrees := by
  cases tree with
  | leaf nodeType text => simp [subtrees]
  | branch nodeType children => simp [subtrees]

theorem subtrees_subset_subtreesList {tree : Tree} {forest : List Tree}
    (member : tree ∈ forest) : tree.subtrees ⊆ subtreesList forest := by
  induction forest with
  | nil => simp at member
  | cons first forest induction =>
      intro subtree inside
      rcases List.mem_cons.mp member with rfl | later
      · simp [subtreesList, inside]
      · have found := induction later inside
        simp [subtreesList, found]

theorem exists_of_mem_subtreesList {subtree : Tree} {forest : List Tree}
    (member : subtree ∈ subtreesList forest) : ∃ tree ∈ forest, subtree ∈ tree.subtrees := by
  induction forest with
  | nil => cases member
  | cons tree forest induction =>
      rw [subtreesList, List.mem_append] at member
      rcases member with here | later
      · exact ⟨tree, List.mem_cons_self, here⟩
      · obtain ⟨other, inside, below⟩ := induction later
        exact ⟨other, List.mem_cons_of_mem _ inside, below⟩

/-- A tree in which every branch has children. -/
def Filled (tree : Tree) : Prop :=
  ∀ nodeType, .branch nodeType [] ∉ tree.subtrees

theorem filled_leaf (nodeType text : String) : Filled (.leaf nodeType text) := by
  intro other
  simp [subtrees]

theorem filled_branch {nodeType : String} {children : List Tree} (nonempty : children ≠ [])
    (filled : ∀ child ∈ children, Filled child) : Filled (.branch nodeType children) := by
  intro other member
  rw [subtrees, List.mem_cons] at member
  rcases member with same | inside
  · cases same
    exact nonempty rfl
  · induction children with
    | nil => exact nonempty rfl
    | cons child children induction =>
        rw [subtreesList, List.mem_append] at inside
        rcases inside with first | later
        · exact filled child (by simp) other first
        · by_cases last : children = []
          · subst last
            simp [subtreesList] at later
          · exact induction last (fun child member => filled child (by simp [member])) later

/-- One forest becomes another by putting branches of the given types, one after the other, over
neighbours. -/
inductive Builds : List Tree → List String → List Tree → Prop where
  | refl (forest : List Tree) : Builds forest [] forest
  | step {forest before captured after : List Tree} {types : List String} (nodeType : String) :
      Builds forest types (before ++ captured ++ after) → captured ≠ [] →
      Builds forest (types ++ [nodeType]) (before ++ .branch nodeType captured :: after)

namespace Builds

theorem trans {first middle last : List Tree} {types later : List String}
    (one : Builds first types middle) (two : Builds middle later last) :
    Builds first (types ++ later) last := by
  induction two with
  | refl => simpa using one
  | step nodeType _ nonempty induction =>
      rw [← List.append_assoc]
      exact .step nodeType induction nonempty

/-- Building goes on in the same way between further neighbours. -/
theorem within {forest forest' : List Tree} {types : List String}
    (builds : Builds forest types forest') (before after : List Tree) :
    Builds (before ++ forest ++ after) types (before ++ forest' ++ after) := by
  induction builds with
  | refl => exact .refl _
  | @step inner captured outer types nodeType _ nonempty induction =>
      have reordered : Builds (before ++ forest ++ after) types
          ((before ++ inner) ++ captured ++ (outer ++ after)) := by
        simpa using induction
      simpa using Builds.step nodeType reordered nonempty

/-- A branch over a whole forest. -/
theorem wrap {forest : List Tree} (nodeType : String) (nonempty : forest ≠ []) :
    Builds forest [nodeType] [.branch nodeType forest] := by
  have whole : Builds forest [] ([] ++ forest ++ []) := by
    simpa using Builds.refl forest
  simpa using whole.step nodeType nonempty

theorem leavesList_eq {forest forest' : List Tree} {types : List String}
    (builds : Builds forest types forest') : leavesList forest' = leavesList forest := by
  induction builds with
  | refl => rfl
  | step nodeType _ _ induction =>
      rw [← induction]
      simp [leavesList, leaves]

/-- Every step adds one node. -/
theorem sizeList_eq {forest forest' : List Tree} {types : List String}
    (builds : Builds forest types forest') :
    sizeList forest' = sizeList forest + types.length := by
  induction builds with
  | refl => simp
  | step nodeType _ _ induction =>
      simp only [sizeList_append, sizeList, size, List.length_append, List.length_singleton]
        at induction ⊢
      omega

theorem filled {forest forest' : List Tree} {types : List String}
    (builds : Builds forest types forest') (before : ∀ tree ∈ forest, Filled tree) :
    ∀ tree ∈ forest', Filled tree := by
  induction builds with
  | refl => exact before
  | step nodeType _ nonempty induction =>
      intro tree member
      rw [List.mem_append, List.mem_cons] at member
      rcases member with left | rfl | right
      · exact induction tree (by simp [left])
      · exact filled_branch nonempty fun child inside => induction child (by simp [inside])
      · exact induction tree (by simp [right])

/-- No subtree is lost. -/
theorem subtreesList_subset {forest forest' : List Tree} {types : List String}
    (builds : Builds forest types forest') : subtreesList forest ⊆ subtreesList forest' := by
  induction builds with
  | refl => exact fun _ member => member
  | step nodeType _ _ induction =>
      intro subtree member
      have found := induction member
      simp only [subtreesList_append, List.mem_append] at found
      simp only [subtreesList_append, subtreesList, subtrees, List.mem_append, List.mem_cons]
      rcases found with (left | inside) | right
      · exact .inl left
      · exact .inr (.inl (.inr inside))
      · exact .inr (.inr right)

end Builds

end RowGrammar.Tree

import Mathlib.Tactic.SplitIfs
import RowGrammar.Proofs.Digits
import RowGrammar.Tree.Compare

/-!
# Exact comparison

The differences of two trees are just the places that both trees have, below nodes of equal types,
where the nodes themselves differ.  The text of a path names the child indices that lead there.
-/

namespace RowGrammar

open RowGrammar.Text

/-! ## Places in trees -/

/-- A mismatch of two nodes in their types or, where these are equal, in their kind, in their
literals or in the number of their children. -/
inductive Mismatch.Between : Mismatch → (actual expected : Tree) → Prop where
  | nodeType {actual expected : Tree} :
      actual.nodeType ≠ expected.nodeType →
      Between (.nodeType actual.nodeType expected.nodeType) actual expected
  | literal {nodeType text text' : String} :
      text ≠ text' → Between (.literal text text') (.leaf nodeType text) (.leaf nodeType text')
  | childCount {nodeType : String} {children children' : List Tree} :
      children.length ≠ children'.length →
      Between (.childCount children.length children'.length)
        (.branch nodeType children) (.branch nodeType children')
  | leafForBranch {nodeType text : String} {children : List Tree} :
      Between .leafForBranch (.leaf nodeType text) (.branch nodeType children)
  | branchForLeaf {nodeType text : String} {children : List Tree} :
      Between .branchForLeaf (.branch nodeType children) (.leaf nodeType text)

namespace Tree

/-- The subtree that a path of child indices leads to. -/
def follow? : List Nat → Tree → Option Tree
  | [], tree => some tree
  | index :: path, tree => tree.children[index]?.bind (follow? path)

/-- A path leads to a node in both trees, through nodes of equal types. -/
structure Meet (actual expected : Tree) (path : List Nat) (here there : Tree) : Prop where
  arrives : actual.follow? path = some here
  arrives' : expected.follow? path = some there
  above : ∀ before after, path = before ++ after → after ≠ [] →
    ∃ ancestor ancestor', actual.follow? before = some ancestor ∧
      expected.follow? before = some ancestor' ∧ ancestor.nodeType = ancestor'.nodeType

variable {actual expected here there : Tree}

theorem meet_nil_iff : Meet actual expected [] here there ↔ here = actual ∧ there = expected := by
  constructor
  · intro ⟨arrives, arrives', _⟩
    exact ⟨(Option.some.inj arrives).symm, (Option.some.inj arrives').symm⟩
  · rintro ⟨rfl, rfl⟩
    refine ⟨rfl, rfl, fun before after same nonempty => ?_⟩
    exact absurd (List.append_eq_nil_iff.mp same.symm).2 nonempty

theorem meet_cons_iff {index : Nat} {path : List Nat} :
    Meet actual expected (index :: path) here there ↔
      actual.nodeType = expected.nodeType ∧ ∃ child child', actual.children[index]? = some child ∧
        expected.children[index]? = some child' ∧ Meet child child' path here there := by
  constructor
  · intro ⟨arrives, arrives', above⟩
    obtain ⟨child, found, further⟩ := Option.bind_eq_some_iff.mp arrives
    obtain ⟨child', found', further'⟩ := Option.bind_eq_some_iff.mp arrives'
    have alike : actual.nodeType = expected.nodeType := by
      obtain ⟨_, _, root, root', same⟩ := above [] (index :: path) rfl (List.cons_ne_nil _ _)
      cases root
      cases root'
      exact same
    refine ⟨alike, child, child', found, found', further, further', ?_⟩
    intro before after same nonempty
    have passed := above (index :: before) after (by rw [same, List.cons_append]) nonempty
    simpa only [follow?, found, found', Option.bind_some] using passed
  · rintro ⟨alike, child, child', found, found', further, further', above⟩
    refine ⟨by rwa [follow?, found], by rwa [follow?, found'], ?_⟩
    intro before after same nonempty
    cases before with
    | nil => exact ⟨actual, expected, rfl, rfl, alike⟩
    | cons first before =>
        rw [List.cons_append, List.cons.injEq] at same
        obtain ⟨rfl, same⟩ := same
        simpa only [follow?, found, found', Option.bind_some] using above before after same nonempty

/-! ## Reported differences -/

/-- The differences among children are those of the pairs of children. -/
theorem mem_differencesFrom_iff {difference : Difference} {index : Nat} {trees trees' : List Tree} :
    difference ∈ differencesFrom index trees trees' ↔
      ∃ (place : Nat) (tree tree' : Tree) (inner : Difference),
        trees[place]? = some tree ∧ trees'[place]? = some tree' ∧
          inner ∈ tree.differences tree' ∧ difference = inner.below (index + place) := by
  induction trees generalizing index trees' with
  | nil => simp [differencesFrom]
  | cons tree trees induction =>
      cases trees' with
      | nil => simp [differencesFrom]
      | cons tree' trees' =>
          rw [differencesFrom, List.mem_append, List.mem_map, induction]
          constructor
          · rintro (⟨inner, member, rfl⟩ |
              ⟨place, other, other', inner, found, found', member, rfl⟩)
            · exact ⟨0, tree, tree', inner, rfl, rfl, member, rfl⟩
            · refine ⟨place + 1, other, other', inner, found, found', member, ?_⟩
              rw [Nat.add_assoc, Nat.add_comm 1]
          · rintro ⟨place, other, other', inner, found, found', member, rfl⟩
            cases place with
            | zero =>
                cases found
                cases found'
                exact .inl ⟨inner, member, rfl⟩
            | succ place =>
                refine .inr ⟨place, other, other', inner, found, found', member, ?_⟩
                rw [Nat.add_assoc, Nat.add_comm 1]

/-- Trees of different node types differ in these only. -/
theorem differences_of_ne (apart : actual.nodeType ≠ expected.nodeType) :
    actual.differences expected = [⟨[], .nodeType actual.nodeType expected.nodeType⟩] := by
  cases actual <;> cases expected <;> exact if_pos apart

theorem between_iff_of_ne (apart : actual.nodeType ≠ expected.nodeType) {mismatch : Mismatch} :
    mismatch.Between actual expected ↔
      mismatch = .nodeType actual.nodeType expected.nodeType := by
  grind [Mismatch.Between, nodeType]

theorem between_leaves_iff {nodeType text text' : String} {mismatch : Mismatch} :
    mismatch.Between (.leaf nodeType text) (.leaf nodeType text') ↔
      text ≠ text' ∧ mismatch = .literal text text' := by
  grind [Mismatch.Between, nodeType]

theorem between_branches_iff {nodeType : String} {children children' : List Tree}
    {mismatch : Mismatch} :
    mismatch.Between (.branch nodeType children) (.branch nodeType children') ↔
      children.length ≠ children'.length ∧
        mismatch = .childCount children.length children'.length := by
  grind [Mismatch.Between, nodeType]

theorem between_leaf_branch_iff {nodeType text : String} {children : List Tree}
    {mismatch : Mismatch} :
    mismatch.Between (.leaf nodeType text) (.branch nodeType children) ↔
      mismatch = .leafForBranch := by
  grind [Mismatch.Between, nodeType]

theorem between_branch_leaf_iff {nodeType text : String} {children : List Tree}
    {mismatch : Mismatch} :
    mismatch.Between (.branch nodeType children) (.leaf nodeType text) ↔
      mismatch = .branchForLeaf := by
  grind [Mismatch.Between, nodeType]

/-- A difference is reported for the roots themselves or, below roots of equal types, for a pair of
their children. -/
theorem mem_differences_step {difference : Difference} :
    difference ∈ actual.differences expected ↔
      (difference.path = [] ∧ difference.mismatch.Between actual expected) ∨
        (actual.nodeType = expected.nodeType ∧
          ∃ (index : Nat) (child child' : Tree) (inner : Difference),
            actual.children[index]? = some child ∧ expected.children[index]? = some child' ∧
              inner ∈ child.differences child' ∧ difference = inner.below index) := by
  obtain ⟨path, mismatch⟩ := difference
  by_cases alike : actual.nodeType = expected.nodeType
  case neg =>
    rw [differences_of_ne alike, between_iff_of_ne alike]
    simp [alike]
  cases actual with
  | leaf name text =>
      cases expected with
      | leaf name' text' =>
          obtain rfl : name = name' := alike
          rw [differences, between_leaves_iff, if_neg (not_not_intro rfl)]
          by_cases same : text = text' <;> simp [same, children]
      | branch name' children' =>
          obtain rfl : name = name' := alike
          rw [differences, between_leaf_branch_iff, if_neg (not_not_intro rfl)]
          simp [children]
  | branch name children =>
      cases expected with
      | leaf name' text' =>
          obtain rfl : name = name' := alike
          rw [differences, between_branch_leaf_iff, if_neg (not_not_intro rfl)]
          simp [Tree.children]
      | branch name' children' =>
          obtain rfl : name = name' := alike
          rw [differences, between_branches_iff, if_neg (not_not_intro rfl), List.mem_append,
            mem_differencesFrom_iff]
          by_cases same : children.length = children'.length <;>
            simp [same, Tree.children, nodeType]

/-- The differences of two trees are just the places where both have nodes that differ, below nodes
of equal types. -/
theorem mem_differences_iff {difference : Difference} :
    difference ∈ actual.differences expected ↔
      ∃ here there, Meet actual expected difference.path here there ∧
        difference.mismatch.Between here there := by
  obtain ⟨path, mismatch⟩ := difference
  induction path generalizing actual expected with
  | nil =>
      rw [mem_differences_step]
      simp [meet_nil_iff, Difference.below]
  | cons index path induction =>
      rw [mem_differences_step]
      simp only [meet_cons_iff]
      constructor
      · rintro (⟨root, _⟩ | ⟨alike, place, child, child', ⟨path', mismatch'⟩, found, found', member,
          same⟩)
        · cases root
        · cases same
          obtain ⟨here, there, meet, between⟩ := induction.mp member
          exact ⟨here, there, ⟨alike, child, child', found, found', meet⟩, between⟩
      · rintro ⟨here, there, ⟨alike, child, child', found, found', meet⟩, between⟩
        have member := induction.mpr ⟨here, there, meet, between⟩
        exact .inr ⟨alike, index, child, child', _, found, found', member, rfl⟩

/-! ## Equal trees -/

mutual

theorem differences_self (tree : Tree) : tree.differences tree = [] := by
  cases tree with
  | leaf nodeType text => simp [differences]
  | branch nodeType children => simp [differences, differencesFrom_self 0 children]

theorem differencesFrom_self (index : Nat) (trees : List Tree) :
    differencesFrom index trees trees = [] := by
  cases trees with
  | nil => rfl
  | cons tree trees =>
      rw [differencesFrom, differences_self tree, differencesFrom_self (index + 1) trees]
      rfl

end

mutual

theorem eq_of_differences_eq_nil : (actual expected : Tree) →
    actual.differences expected = [] → actual = expected
  | .leaf name text, .leaf name' text', silent => by
      simp only [differences, ne_eq, ite_not] at silent
      split_ifs at silent with alike same
      rw [alike, same]
  | .branch name children, .branch name' children', silent => by
      simp only [differences, ne_eq, ite_not] at silent
      split_ifs at silent with alike same
      case neg => cases silent
      rw [alike, eq_of_differencesFrom_eq_nil 0 children children' same silent]
  | .leaf name text, .branch name' children', silent => by
      simp only [differences] at silent
      split_ifs at silent
  | .branch name children, .leaf name' text', silent => by
      simp only [differences] at silent
      split_ifs at silent

theorem eq_of_differencesFrom_eq_nil (index : Nat) : (trees trees' : List Tree) →
    trees.length = trees'.length → differencesFrom index trees trees' = [] → trees = trees'
  | [], [], _, _ => rfl
  | tree :: trees, tree' :: trees', same, silent => by
      rw [differencesFrom, List.append_eq_nil_iff, List.map_eq_nil_iff] at silent
      rw [eq_of_differences_eq_nil tree tree' silent.1,
        eq_of_differencesFrom_eq_nil (index + 1) trees trees' (Nat.succ.inj same) silent.2]

end

end Tree

/-! ## Path texts -/

namespace Difference

/-- The child indices that a path text names, the numbers behind its slashes. -/
def indicesOf (pathText : String) : List Nat :=
  ((pathText.toList.splitOn '/').filter (· ≠ [])).map decimalValue

theorem slash_not_mem_digitsIn (value : Nat) : '/' ∉ digitsIn 10 value :=
  fun member => absurd (isAsciiDigit_of_mem_digitsIn member) (by decide)

/-- Texts with a slash between them are those behind the first one, each with a slash in front. -/
theorem intercalate_slash (text : List Char) (texts : List (List Char)) :
    ['/'].intercalate (text :: texts) = text ++ texts.flatMap ('/' :: ·) := by
  induction texts generalizing text with
  | nil => simp
  | cons next texts induction =>
      rw [List.intercalate_cons_of_ne_nil (List.cons_ne_nil _ _), induction]
      simp

theorem toList_pathText {difference : Difference} (deep : difference.path ≠ []) :
    difference.pathText.toList = ['/'].intercalate ([] :: difference.path.map (digitsIn 10)) := by
  rw [pathText, if_neg (by simpa using deep), intercalate_slash]
  simp [decimal, List.flatMap_map]

/-- The text of a path names its indices. -/
theorem indicesOf_pathText (difference : Difference) :
    indicesOf difference.pathText = difference.path := by
  by_cases root : difference.path = []
  · rw [root, pathText, if_pos (by simp [root])]
    decide
  · have parts : difference.pathText.toList.splitOn '/' =
        [] :: difference.path.map (digitsIn 10) := by
      rw [toList_pathText root]
      apply List.splitOn_intercalate
      · rintro text (_ | ⟨_, listed⟩)
        · exact List.not_mem_nil
        · obtain ⟨index, _, rfl⟩ := List.mem_map.mp listed
          exact slash_not_mem_digitsIn index
      · exact List.cons_ne_nil _ _
    have written : (difference.path.map (digitsIn 10)).filter (· ≠ []) =
        difference.path.map (digitsIn 10) := by
      simp [List.filter_eq_self, digitsIn_ne_nil]
    rw [indicesOf, parts, List.filter_cons_of_neg (by simp), written, List.map_map]
    calc difference.path.map (decimalValue ∘ digitsIn 10)
      _ = difference.path.map id := List.map_congr_left fun index _ => decimalValue_digitsIn index
      _ = difference.path := List.map_id _

end Difference

namespace Tree

/-- Nothing is reported for equal trees, and for no others.  The text of a reported path names the
indices that lead from both roots, through nodes of equal types, to two nodes that differ as
reported; and all such nodes are reported. -/
theorem differences_exact (actual expected : Tree) :
    (actual.differences expected = [] ↔ actual = expected) ∧
      (∀ difference : Difference, Difference.indicesOf difference.pathText = difference.path) ∧
      ∀ difference : Difference, difference ∈ actual.differences expected ↔
        ∃ here there, Meet actual expected difference.path here there ∧
          difference.mismatch.Between here there := by
  refine ⟨⟨eq_of_differences_eq_nil actual expected, ?_⟩, Difference.indicesOf_pathText,
    fun _ => mem_differences_iff⟩
  rintro rfl
  exact differences_self actual

/-- A missing child is reported at its parent, and the children before it are still compared. -/
example :
    ((branch "Sum" [.leaf "Num" "1", .leaf "Times" "*"]).differences
      (.branch "Sum" [.leaf "Num" "1", .leaf "Plus" "+", .leaf "Num" "2"])).map (·.text) =
        ["/: 2 children, expected 3", "/1: nodeType Times should be Plus"] := by
  decide +kernel

end Tree

end RowGrammar

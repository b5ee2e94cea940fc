/-!
# Trees

The result of a parse: leaves hold a literal of the source, branches hold further trees.
-/

namespace RowGrammar

inductive Tree where
  | leaf (nodeType text : String)
  | branch (nodeType : String) (children : List Tree)
  deriving Repr

namespace Tree

mutual

def decideEq : (left right : Tree) → Decidable (left = right)
  | .leaf nodeType text, .leaf nodeType' text' =>
      if same : nodeType = nodeType' ∧ text = text' then
        .isTrue (by rw [same.1, same.2])
      else
        .isFalse fun equality => same (by cases equality; exact ⟨rfl, rfl⟩)
  | .leaf .., .branch .. => .isFalse nofun
  | .branch .., .leaf .. => .isFalse nofun
  | .branch nodeType children, .branch nodeType' children' =>
      if same : nodeType = nodeType' then
        match decideEqList children children' with
        | .isTrue equal => .isTrue (by rw [same, equal])
        | .isFalse differ => .isFalse fun equality => differ (by cases equality; rfl)
      else
        .isFalse fun equality => same (by cases equality; rfl)

/-- Decides whether two lists of trees are equal. -/
def decideEqList : (left right : List Tree) → Decidable (left = right)
  | [], [] => .isTrue rfl
  | [], _ :: _ => .isFalse nofun
  | _ :: _, [] => .isFalse nofun
  | tree :: trees, tree' :: trees' =>
      match decideEq tree tree' with
      | .isTrue equal =>
          match decideEqList trees trees' with
          | .isTrue equals => .isTrue (by rw [equal, equals])
          | .isFalse differ => .isFalse fun equality => differ (by cases equality; rfl)
      | .isFalse differ => .isFalse fun equality => differ (by cases equality; rfl)

end

instance : DecidableEq Tree := decideEq

def nodeType : Tree → String
  | .leaf nodeType _ | .branch nodeType _ => nodeType

/-- The literal of a leaf. -/
def text? : Tree → Option String
  | .leaf _ text => some text
  | .branch .. => none

def children : Tree → List Tree
  | .leaf .. => []
  | .branch _ children => children

def isLeaf : Tree → Bool
  | .leaf .. => true
  | .branch .. => false

mutual

/-- Every subtree, the tree itself first, each before those inside it. -/
def subtrees : Tree → List Tree
  | .leaf nodeType text => [.leaf nodeType text]
  | .branch nodeType children => .branch nodeType children :: subtreesList children

def subtreesList : List Tree → List Tree
  | [] => []
  | tree :: trees => tree.subtrees ++ subtreesList trees

end

mutual

/-- Every subtree, each after those inside it. -/
def subtreesInnerFirst : Tree → List Tree
  | .leaf nodeType text => [.leaf nodeType text]
  | .branch nodeType children =>
      subtreesInnerFirstList children ++ [.branch nodeType children]

def subtreesInnerFirstList : List Tree → List Tree
  | [] => []
  | tree :: trees => tree.subtreesInnerFirst ++ subtreesInnerFirstList trees

end

mutual

/-- The leaves from left to right, each as its node type and its literal. -/
def leaves : Tree → List (String × String)
  | .leaf nodeType text => [(nodeType, text)]
  | .branch _ children => leavesList children

def leavesList : List Tree → List (String × String)
  | [] => []
  | tree :: trees => tree.leaves ++ leavesList trees

end

mutual

/-- The number of leaves and branches. -/
def size : Tree → Nat
  | .leaf .. => 1
  | .branch _ children => sizeList children + 1

def sizeList : List Tree → Nat
  | [] => 0
  | tree :: trees => tree.size + sizeList trees

end

/-- The literals of the leaves one after the other. -/
def sourceText (tree : Tree) : String :=
  String.join (tree.leaves.map (·.2))

end Tree

end RowGrammar

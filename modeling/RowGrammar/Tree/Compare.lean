import RowGrammar.Text.Quoted
import RowGrammar.Tree.Basic

/-!
# Comparing trees

Where a tree differs from the one it should be.  Below a difference in node type or in kind nothing
is compared; when the numbers of children differ, the children that both trees have still are.
-/

namespace RowGrammar

open RowGrammar.Text

/-- How two subtrees at the same place differ. -/
inductive Mismatch where
  | nodeType (actual expected : String)
  | literal (actual expected : String)
  | childCount (actual expected : Nat)
  | leafForBranch
  | branchForLeaf
  deriving DecidableEq, Repr

def Mismatch.message : Mismatch → String
  | .nodeType actual expected => "nodeType " ++ actual ++ " should be " ++ expected
  | .literal actual expected => "literal " ++ quoted actual ++ " should be " ++ quoted expected
  | .childCount actual expected =>
      decimal actual ++ " children, expected " ++ decimal expected
  | .leafForBranch => "leaf should be a node"
  | .branchForLeaf => "node should be a leaf"

/-- A mismatch and the child indices that lead to it from the root. -/
structure Difference where
  path : List Nat
  mismatch : Mismatch
  deriving DecidableEq, Repr

namespace Difference

/-- The path as a text; `/` is the root. -/
def pathText (difference : Difference) : String :=
  if difference.path.isEmpty then "/"
  else String.join (difference.path.map fun index => "/" ++ decimal index)

/-- The difference in one line. -/
def text (difference : Difference) : String :=
  difference.pathText ++ ": " ++ difference.mismatch.message

/-- The difference as seen from the parent of the tree it was found in. -/
def below (index : Nat) (difference : Difference) : Difference :=
  { difference with path := index :: difference.path }

end Difference

namespace Tree

mutual

/-- The differences of a tree from the expected one, outer ones first, from left to right. -/
def differences : (actual expected : Tree) → List Difference
  | .leaf nodeType text, .leaf nodeType' text' =>
      if nodeType ≠ nodeType' then [⟨[], .nodeType nodeType nodeType'⟩]
      else if text ≠ text' then [⟨[], .literal text text'⟩]
      else []
  | .branch nodeType children, .branch nodeType' children' =>
      if nodeType ≠ nodeType' then [⟨[], .nodeType nodeType nodeType'⟩]
      else
        (if children.length ≠ children'.length then
          [⟨[], .childCount children.length children'.length⟩]
        else []) ++ differencesFrom 0 children children'
  | .leaf nodeType _, .branch nodeType' _ =>
      if nodeType ≠ nodeType' then [⟨[], .nodeType nodeType nodeType'⟩]
      else [⟨[], .leafForBranch⟩]
  | .branch nodeType _, .leaf nodeType' _ =>
      if nodeType ≠ nodeType' then [⟨[], .nodeType nodeType nodeType'⟩]
      else [⟨[], .branchForLeaf⟩]

/-- The differences among children of which the first ones have the given index. -/
def differencesFrom (index : Nat) : (actual expected : List Tree) → List Difference
  | tree :: trees, tree' :: trees' =>
      (tree.differences tree').map (.below index) ++ differencesFrom (index + 1) trees trees'
  | _, _ => []

end

end Tree

end RowGrammar

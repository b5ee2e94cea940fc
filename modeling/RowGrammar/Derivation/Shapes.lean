import RowGrammar.Tree.Basic

/-!
# Shapes of branches

A branch of an example shows how its node type is built: the types of its children, and the types
of its siblings on either side, which may be needed to tell it from other types.
-/

namespace RowGrammar.Derivation

/-- The surroundings of one branch; siblings are listed from the nearest one on. -/
structure Shape where
  nodeType : String
  children : List String
  left : List String
  right : List String
  deriving DecidableEq, Repr

mutual

/-- The shapes of a tree between siblings, inner branches first. -/
def shapesOf (left right : List String) : Tree → List Shape
  | .leaf .. => []
  | .branch nodeType children =>
      shapesOfList [] children ++ [⟨nodeType, children.map Tree.nodeType, left, right⟩]

/-- The shapes of siblings that follow those on the left. -/
def shapesOfList (left : List String) : List Tree → List Shape
  | [] => []
  | tree :: trees =>
      shapesOf left (trees.map Tree.nodeType) tree ++ shapesOfList (tree.nodeType :: left) trees

end

/-- The branch types of an example and their shapes, each where it first comes up. -/
structure ShapeInference where
  order : List String
  shapes : List Shape
  deriving DecidableEq, Repr

namespace ShapeInference

def infer (example_ : Tree) : ShapeInference :=
  let shapes := shapesOf [] [] example_
  ⟨(shapes.map (·.nodeType)).eraseDups, shapes.eraseDups⟩

/-- Whether branches of several types have these children. -/
def isShared (inference : ShapeInference) (children : List String) : Bool :=
  1 < (((inference.shapes.filter (·.children == children)).map (·.nodeType)).eraseDups).length

/-- The types and children of the shapes whose children other types have as well. -/
def conflicts (inference : ShapeInference) : List (String × List String) :=
  ((inference.shapes.filter fun shape => inference.isShared shape.children).map fun shape =>
    (shape.nodeType, shape.children)).eraseDups

end ShapeInference

end RowGrammar.Derivation
